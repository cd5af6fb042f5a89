import IotRobot.Emulator.Rest

/-!
# The status frames of a run

The emulated motors stay under their keys, and every status frame that is sent for one of them
shows it as it is after the tick that sends the frame.
-/

namespace IotRobot.Emulator

open Lib Can

set_option autoImplicit false

section Keys
variable {K : Type} [Field K] {motors motors' : Dict Nat (EmulatedMotor K)}

theorem perform_keys {actions : List Action} (h : actions.foldlM Action.perform motors = .ok motors') :
    motors'.keys = motors.keys := by
  induction actions generalizing motors with
  | nil =>
    cases h
    rfl
  | cons action actions ih =>
    rw [List.foldlM_cons] at h
    cases hget : motors.get action.can_id with
    | none =>
      rw [Action.perform, hget] at h
      cases h
    | some m =>
      rw [Action.perform, hget] at h
      exact (ih h).trans (Dict.keys_set (Dict.mem_keys_iff.mpr ⟨m, hget⟩) _)

variable [LinearOrder K] {exp : K → K} {timeout now dt : K} {s s' : FakeCubeMars K}

theorem tick_motors_keys (h : tick_motors exp timeout now dt motors = .ok motors') : motors'.keys = motors.keys := by
  induction motors generalizing motors' with
  | nil =>
    cases h
    rfl
  | cons item motors ih =>
    obtain ⟨k, m₀⟩ := item
    rw [tick_motors] at h
    cases hfirst : tick_motor exp timeout now dt m₀ with
    | error e =>
      rw [hfirst] at h
      cases h
    | ok m₁ =>
      rw [hfirst] at h
      cases hrest : tick_motors exp timeout now dt motors with
      | error e =>
        rw [hrest] at h
        cases h
      | ok rest =>
        rw [hrest] at h
        cases h
        exact congrArg (List.cons k) (ih hrest)

omit [Field K] [LinearOrder K] in
theorem with_motor_frame (k : Nat) (f : EmulatedMotor K → EmulatedMotor K) :
    (s.with_motor k f).motors.keys = s.motors.keys ∧ (s.with_motor k f).sent = s.sent := by
  unfold FakeCubeMars.with_motor
  cases hget : s.motors.get k with
  | none => exact ⟨rfl, rfl⟩
  | some m => exact ⟨Dict.keys_set (Dict.mem_keys_iff.mpr ⟨m, hget⟩) _, rfl⟩

/-- An event keeps the motors, and what it sends is the status of motors after it. -/
theorem next_sent [FloorRing K] {e : Event K} (hn : next exp s e s') :
    s'.motors.keys = s.motors.keys ∧
      ∃ frames, s'.sent = s.sent ++ frames ∧ ∀ frame ∈ frames, ∃ item ∈ s'.motors, frame = item.2.status := by
  have hquiet : ∀ {s' : FakeCubeMars K}, s'.motors.keys = s.motors.keys ∧ s'.sent = s.sent →
      s'.motors.keys = s.motors.keys ∧ ∃ frames, s'.sent = s.sent ++ frames ∧
        ∀ frame ∈ frames, ∃ item ∈ s'.motors, frame = item.2.status :=
    fun ⟨hkeys, hsent⟩ => ⟨hkeys, [], by simp [hsent], by simp⟩
  cases hn with
  | round now received hclock hround =>
    rcases round_cases hround with
      ⟨motors, motors', -, hacts, hticks, hmotors, -, -, -, -, hsent⟩ | rfl | ⟨frame, at_, -, hreceive⟩
    · refine ⟨by rw [hmotors, tick_motors_keys hticks, perform_keys hacts], _, hsent, ?_⟩
      intro frame hframe
      obtain ⟨item, hitem, rfl⟩ := List.mem_map.mp hframe
      exact ⟨item, hmotors ▸ List.mem_of_mem_filter hitem, rfl⟩
    · exact hquiet ⟨rfl, rfl⟩
    rcases receive_cases hreceive with rfl | ⟨m, m', result, hget, -, rfl⟩
    · exact hquiet ⟨rfl, rfl⟩
    · exact hquiet ⟨Dict.keys_set (Dict.mem_keys_iff.mpr ⟨m, hget⟩) _, rfl⟩
  | schedule due action => exact hquiet ⟨rfl, rfl⟩
  | set_position k position_deg => exact hquiet (with_motor_frame k _)
  | power_cycle k position_deg => exact hquiet (with_motor_frame k _)
  | inject k stuck ignore_origin load_current_a => exact hquiet (with_motor_frame k _)

end Keys

section Runs
variable {K : Type} [Field K] [LinearOrder K] [IsStrictOrderedRing K] [FloorRing K] {exp : K → K}
  {s t : FakeCubeMars K} {es : List (Event K)} {can_id : Nat}

/-- The motors are kept under their CAN IDs, each of one byte. -/
structure Keyed (s : FakeCubeMars K) : Prop where
  nodup : s.motors.keys.Nodup
  bytes : ∀ k ∈ s.motors.keys, k < 256
  can_id : ∀ k m, s.motors.get k = some m → m.can_id = k ∧ m.Sound

omit [IsStrictOrderedRing K] [FloorRing K] in
theorem keyed_start {ids : List Nat} {rate position_speed timeout now : K}
    (h : FakeCubeMars.start ids rate position_speed timeout now = some s) (hbytes : ∀ k ∈ ids, k < 256) :
    Keyed s := by
  unfold FakeCubeMars.start at h
  split_ifs at h
  cases h
  have hfold : ∀ (more : List Nat) (motors : Dict Nat (EmulatedMotor K)), (∀ k ∈ more, k < 256) →
      motors.keys.Nodup ∧ (∀ k ∈ motors.keys, k < 256) ∧
        (∀ k m, motors.get k = some m → m.can_id = k ∧ m.Sound) →
      let motors' := more.foldl (fun motors can_id => motors.set can_id (.new can_id position_speed)) motors
      motors'.keys.Nodup ∧ (∀ k ∈ motors'.keys, k < 256) ∧
        ∀ k m, motors'.get k = some m → m.can_id = k ∧ m.Sound := by
    intro more
    induction more with
    | nil => exact fun motors _ h => h
    | cons k more ih =>
      rintro motors hmore ⟨hnodup, hkeys, hmotors⟩
      apply ih _ fun j hj => hmore j (List.mem_cons_of_mem _ hj)
      refine ⟨Dict.nodup_keys_set hnodup _ _, fun j hj => ?_, fun j m hget => ?_⟩
      · rcases (Dict.mem_keys_set ..).mp hj with rfl | hj
        · exact hmore _ List.mem_cons_self
        · exact hkeys j hj
      · rw [Dict.get_set] at hget
        split_ifs at hget with hjk
        · cases hget
          exact ⟨hjk.symm, sound_new _ _⟩
        · exact hmotors j m hget
  obtain ⟨hnodup, hkeys, hmotors⟩ := hfold ids [] hbytes ⟨List.nodup_nil, by simp [Dict.keys], by simp [Dict.get]⟩
  exact ⟨hnodup, hkeys, hmotors⟩

omit [FloorRing K] in
theorem MotorStep.same_id {s' : FakeCubeMars K} {e : Event K} {m m' : EmulatedMotor K}
    (h : MotorStep exp can_id s s' e m m') (hs : m.Sound) : m'.can_id = m.can_id := by
  cases h with
  | commanded now frame at_ result hid hcommand hlog hlast => rw [EmulatedMotor.command_base hcommand]
  | ticked now received htick hdue hclock hlog hlast =>
    obtain ⟨m₀, hcalm, hstep, -⟩ := tick_calms htick
    obtain ⟨encoder_deg, speed, hmoved⟩ := EmulatedMotor.step_moves (hcalm.sound hs).geared hstep
    rw [hmoved.moved]
    exact hcalm.can_id
  | rest => rfl
  | placed => rfl
  | cycled => rfl
  | injected => rfl

theorem keyed_next {s' : FakeCubeMars K} {e : Event K} (hs : Keyed s) (hn : next exp s e s') : Keyed s' := by
  obtain ⟨hkeys, -⟩ := next_sent hn
  refine ⟨hkeys ▸ hs.nodup, hkeys ▸ hs.bytes, fun k m' hget => ?_⟩
  have hmem : k ∈ s.motors.keys := hkeys ▸ Dict.mem_keys_iff.mpr ⟨m', hget⟩
  obtain ⟨m, hm⟩ := Dict.mem_keys_iff.mp hmem
  obtain ⟨m₁, hm₁, hstep⟩ := motor_step hn hm
  obtain rfl := Option.some.inj (hm₁.symm.trans hget)
  obtain ⟨hcan_id, hsound⟩ := hs.can_id k m hm
  exact ⟨(hstep.same_id hsound).trans hcan_id, hstep.sound hsound⟩

theorem run_keyed (hr : Run (next exp) s es t) (hs : Keyed s) : Keyed t :=
  hr.invariant Keyed hs fun _ _ _ h hn => keyed_next h hn

theorem status_id_injective {i j : Nat} (hi : i < 256) (hj : j < 256) (h : status_id i = status_id j) : i = j := by
  rw [status_id_eq hi, status_id_eq hj] at h
  omega

/-- The status frames that a run sends for a motor show it in states of the run. -/
theorem run_sent (hr : Run (next exp) s es t) (hs : Keyed s) (hid : can_id < 256) (P : EmulatedMotor K → Prop)
    (hP : ∀ es₁ es₂ u m, es = es₁ ++ es₂ → Run (next exp) s es₁ u → Run (next exp) u es₂ t →
      u.motors.get can_id = some m → P m) :
    ∃ frames, t.sent = s.sent ++ frames ∧
      ∀ frame ∈ frames, frame.id = status_id can_id → ∃ m, P m ∧ m.can_id = can_id ∧ frame = m.status := by
  induction hr with
  | nil => exact ⟨[], by simp, by simp⟩
  | snoc hrun hn ih =>
    rename_i es₁ u v e
    have hwhole := hrun.snoc hn
    obtain ⟨frames, hsent, hshown⟩ := ih fun es₂ es₃ w m hes hw hrest hm =>
      hP es₂ (es₃ ++ [e]) w m (by rw [hes, List.append_assoc]) hw (hrest.snoc hn) hm
    obtain ⟨-, more, hmore, hstatus⟩ := next_sent hn
    refine ⟨frames ++ more, by rw [hmore, hsent, List.append_assoc], fun frame hframe hframe_id => ?_⟩
    rcases List.mem_append.mp hframe with hframe | hframe
    · exact hshown frame hframe hframe_id
    · obtain ⟨item, hitem, rfl⟩ := hstatus frame hframe
      have hkeyed := run_keyed hwhole hs
      have hget : v.motors.get item.1 = some item.2 := (lookup_iff_mem hkeyed.nodup).mpr hitem
      obtain ⟨hcan_id, -⟩ := hkeyed.can_id _ _ hget
      have hbyte := hkeyed.bytes _ (Dict.mem_keys_iff.mpr ⟨_, hget⟩)
      have hown : item.2.can_id = can_id :=
        status_id_injective (by rw [hcan_id]; exact hbyte) hid hframe_id
      have hget : v.motors.get can_id = some item.2 := by rw [← hown, hcan_id]; exact hget
      exact ⟨item.2, hP _ [] v item.2 (List.append_nil _).symm hwhole .nil hget, hown, rfl⟩

end Runs

end IotRobot.Emulator
