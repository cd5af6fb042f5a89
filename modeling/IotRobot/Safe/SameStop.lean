import IotRobot.Can.Deadlines
import IotRobot.Lib.Traces
import IotRobot.Safe.StopInvariant

/-!
# The stop of the tools against the stop of the component

Both brake with zero speed and then release, and both look at the clock once before and
once in every round. In front of the same readings and the same answers to their sends
they go through the same rounds. The component attempts every frame; the tool gives up
with an `OSError` at the first frame that it cannot send.
-/

namespace IotRobot.Can

open Lib Prog

set_option autoImplicit false

section Cut
variable {K α β : Type} [Preorder K] (bus : Bus K)

/-- A run from `s` attempts `frames` up to the first one that fails. Without a failure it
takes `looks` readings and returns `a`. -/
structure Cut (frames : List CanFrame) (looks : Nat) (a : α) (s : Session K)
    (run : Outcome (Exception K) α × Session K) : Prop where
  trace : run.2.trace =
    s.trace ++ (attempted (fun k => bus.calls (s.calls + k)) frames).map .sent
  sent : (∀ k < frames.length, bus.calls (s.calls + k) = true) →
    run.1 = .returned a ∧ run.2.readings = s.readings + looks ∧
      run.2.calls = s.calls + frames.length
  failed : (∃ k < frames.length, bus.calls (s.calls + k) = false) → run.1 = .raised .os_error

variable {bus}

theorem cut_pure (a : α) (s : Session K) : Cut bus [] 0 a s ((pure a : Tool K α) s) := by
  refine ⟨(List.append_nil _).symm, fun _ => ⟨rfl, rfl, rfl⟩, ?_⟩
  rintro ⟨k, hk, -⟩
  exact absurd hk (Nat.not_lt_zero k)

theorem cut_monotonic (s : Session K) :
    Cut bus [] 1 (bus.clock.reading s.readings) s (monotonic bus s) := by
  refine ⟨(List.append_nil _).symm, fun _ => ⟨rfl, rfl, rfl⟩, ?_⟩
  rintro ⟨k, hk, -⟩
  exact absurd hk (Nat.not_lt_zero k)

theorem cut_send (frame : CanFrame) (s : Session K) :
    Cut bus [frame] 0 () s (send bus frame s) := by
  refine ⟨by simp [attempted, send], fun hall => ?_, ?_⟩
  · have hcall : bus.calls s.calls = true := hall 0 (Nat.succ_pos 0)
    exact ⟨by rw [send, hcall]; rfl, rfl, rfl⟩
  · rintro ⟨k, hk, hfails⟩
    obtain rfl : k = 0 := Nat.lt_one_iff.mp hk
    have hcall : bus.calls s.calls = false := hfails
    rw [send, hcall]
    rfl

/-- What is attempted by one part after another. -/
theorem cut_bind {p : Tool K α} {q : α → Tool K β} {frames more : List CanFrame}
    {looks looks' : Nat} {a : α} {b : β} {s : Session K} (hp : Cut bus frames looks a s (p s))
    (hq : ∀ s', s'.readings = s.readings + looks → s'.calls = s.calls + frames.length →
      Cut bus more looks' b s' (q a s')) :
    Cut bus (frames ++ more) (looks + looks') b s ((p >>= q) s) := by
  show Cut bus _ _ b s (Prog.bind p q s)
  unfold Prog.bind
  rcases hrun : p s with ⟨o, s'⟩
  rw [hrun] at hp
  by_cases hall : ∀ k < frames.length, bus.calls (s.calls + k) = true
  · obtain ⟨rfl, hreadings, hcalls⟩ := hp.sent hall
    have hrest := hq s' hreadings hcalls
    have hshift : ∀ k, bus.calls (s'.calls + k) = bus.calls (s.calls + (frames.length + k)) := by
      intro k
      rw [show s'.calls = s.calls + frames.length from hcalls, Nat.add_assoc]
    refine ⟨?_, fun hmore => ?_, ?_⟩
    · have htrace : s'.trace = s.trace ++ frames.map .sent := by
        have h := hp.trace
        rwa [(attempted_eq_iff _ _).mpr fun k hk => hall k (Nat.lt_of_succ_lt hk)] at h
      rw [hrest.trace, htrace, attempted_append _ _ _ hall]
      simp only [hshift, List.map_append, List.append_assoc]
    · obtain ⟨hret, hr, hc⟩ := hrest.sent fun k hk => by
        rw [hshift]
        exact hmore _ (by rw [List.length_append]; omega)
      rw [hreadings] at hr
      rw [hcalls] at hc
      exact ⟨hret, by rw [hr]; omega, by rw [hc, List.length_append]; omega⟩
    · rintro ⟨k, hk, hfails⟩
      rw [List.length_append] at hk
      have hge : frames.length ≤ k := by
        by_contra hlt
        rw [hall k (Nat.lt_of_not_le hlt)] at hfails
        cases hfails
      refine hrest.failed ⟨k - frames.length, by omega, ?_⟩
      rw [hshift, show frames.length + (k - frames.length) = k by omega]
      exact hfails
  · -- the first part gives up, and so nothing of the second is attempted
    have hfails : ∃ k < frames.length, bus.calls (s.calls + k) = false := by
      simpa using hall
    obtain rfl : o = .raised .os_error := hp.failed hfails
    refine ⟨?_, fun hmore => ?_, fun _ => rfl⟩
    · rw [attempted_append_failed _ _ _ hfails]
      exact hp.trace
    · refine absurd (fun k hk => hmore k ?_) hall
      rw [List.length_append]
      omega

/-- A second part that attempts nothing. -/
theorem cut_bind_quiet {p : Tool K α} {q : α → Tool K β} {frames : List CanFrame}
    {looks looks' : Nat} {a : α} {b : β} {s : Session K} (hp : Cut bus frames looks a s (p s))
    (hq : ∀ s', s'.readings = s.readings + looks → Cut bus [] looks' b s' (q a s')) :
    Cut bus frames (looks + looks') b s ((p >>= q) s) := by
  have h := cut_bind hp fun s' hreadings _ => hq s' hreadings
  rwa [List.append_nil] at h

theorem cut_each {ι : Type} {body : ι → Tool K Unit} {frame : ι → CanFrame}
    (hbody : ∀ x s, Cut bus [frame x] 0 () s (body x s)) :
    ∀ (l : List ι) (s : Session K), Cut bus (l.map frame) 0 () s (each l body s) := by
  intro l
  induction l with
  | nil => exact cut_pure ()
  | cons x l ih =>
    intro s
    show Cut bus ([frame x] ++ l.map frame) (0 + 0) () s _
    exact cut_bind (hbody x s) fun s' _ _ => ih s'

end Cut

section Stop
variable {K : Type} [Field K] [LinearOrder K] [IsStrictOrderedRing K] [FloorRing K] {bus : Bus K}
  {can_ids : List Nat} {until_ period : K}

theorem cut_brake_round (s : Session K) :
    Cut bus (can_ids.map zero_speed) 1
      (if until_ < bus.clock.reading s.readings + period then Sum.inl () else Sum.inr ()) s
      (brake_round bus can_ids (.fin until_) period s) := by
  have hsweep : Cut bus (can_ids.map zero_speed) 0 () s (send_zero_speeds bus can_ids s) := by
    refine cut_each (fun x s => ?_) can_ids s
    rw [encode_speed_zero]
    exact cut_send (zero_speed x) s
  show Cut bus _ (0 + (1 + 0)) _ s _
  refine cut_bind_quiet hsweep fun s' hreadings => ?_
  rw [show s.readings = s'.readings from hreadings.symm]
  refine cut_bind_quiet (cut_monotonic s') fun s'' _ => ?_
  simp only [Dbl.fin_lt_fin]
  split
  · exact cut_pure _ s''
  · exact cut_pure _ s''

/-- The brake loop that is left at its reading `k`. -/
theorem cut_brake (k : Nat) {fuel : Nat} (hfuel : k < fuel) (s : Session K)
    (hgo : ∀ j < k, ¬ until_ < bus.clock.reading (s.readings + j) + period)
    (hleave : until_ < bus.clock.reading (s.readings + k) + period) :
    Cut bus (brake_rounds can_ids (k + 1)) (k + 1) () s
      (forever (fun () => brake_round bus can_ids (.fin until_) period) fuel () s) := by
  induction k generalizing fuel s with
  | zero =>
    obtain ⟨fuel, rfl⟩ := Nat.exists_eq_add_of_lt hfuel
    have hround : Cut bus (can_ids.map zero_speed) 1 _ s
      (brake_round bus can_ids (.fin until_) period s) := cut_brake_round s
    rw [if_pos (show until_ < bus.clock.reading s.readings + period from hleave)] at hround
    show Cut bus (can_ids.map zero_speed ++ []) (1 + 0) () s _
    exact cut_bind hround fun s' _ _ => cut_pure () s'
  | succ k ih =>
    obtain ⟨fuel, rfl⟩ : ∃ m, fuel = m + 1 := ⟨fuel - 1, by omega⟩
    have hround : Cut bus (can_ids.map zero_speed) 1 _ s
      (brake_round bus can_ids (.fin until_) period s) := cut_brake_round s
    have hnow : ¬ until_ < bus.clock.reading s.readings + period := hgo 0 (Nat.succ_pos k)
    rw [if_neg hnow] at hround
    show Cut bus (can_ids.map zero_speed ++ brake_rounds can_ids (k + 1)) (k + 1 + 1) () s _
    rw [Nat.add_comm (k + 1) 1]
    refine cut_bind hround fun s' hreadings _ => ?_
    have hnext : ∀ j, s'.readings + j = s.readings + (j + 1) := fun j => by omega
    refine ih (by omega) s' (fun j hj => ?_) ?_
    · rw [hnext]
      exact hgo (j + 1) (Nat.succ_lt_succ hj)
    · rw [hnext]
      exact hleave

/-- A stop whose brake loop is left at its reading `k`, the one before the loop aside. -/
theorem cut_stop {brake_time : K} (k : Nat) (hrounds : k ≤ bus.rounds) (s : Session K)
    (hgo : ∀ j < k, ¬ bus.clock.reading s.readings + brake_time <
      bus.clock.reading (s.readings + 1 + j) + period)
    (hleave : bus.clock.reading s.readings + brake_time <
      bus.clock.reading (s.readings + 1 + k) + period) :
    Cut bus (stop_sequence can_ids k) (1 + (k + 1)) () s
      (stop_motors bus can_ids (.fin brake_time) period s) := by
  show Cut bus ([] ++ stop_sequence can_ids k) (1 + (k + 1 + 0)) () s _
  refine cut_bind (cut_monotonic s) fun s' hreadings _ => ?_
  rw [← hreadings] at hgo hleave
  refine cut_bind (cut_brake k (Nat.lt_succ_of_le hrounds) s' hgo hleave) fun s'' _ _ => ?_
  exact cut_each (fun can_id s => cut_send (encode_release can_id) s) can_ids s''

end Stop

end IotRobot.Can

namespace IotRobot.Safe

open Lib Can

set_option autoImplicit false

section Rounds
variable {K : Type} [Field K] [LinearOrder K] {n : Nat} (c : Component K n) (env : Env)

/-- The brake loop that is left at its reading `k`, from a state with `rounds` rounds done. -/
theorem brake_loop_at {until_ : Nat} (k : Nat) {fuel rounds : Nat} (hfuel : k < fuel)
    {s t : SafeSystem K n} (hbraking : Braking c s rounds t)
    (hgo : ∀ j < k, ¬ env.clock.reading (t.readings + j) + kBrakePeriod * nsPerMs > until_)
    (hleave : env.clock.reading (t.readings + k) + kBrakePeriod * nsPerMs > until_) :
    ∃ s', loop (brake_round c env until_) fuel t = some s' ∧
      Braking c s (rounds + (k + 1)) s' := by
  have hround : ∀ t : SafeSystem K n, brake_round c env until_ t =
      if env.clock.reading t.readings + kBrakePeriod * nsPerMs > until_ then .inl (braked c env t)
      else .inr (braked c env t) := by
    intro t
    simp only [brake_round, braked, now, send_each_eq]
  induction k generalizing fuel rounds t with
  | zero =>
    obtain ⟨fuel, rfl⟩ := Nat.exists_eq_add_of_lt hfuel
    refine ⟨braked c env t, ?_, hbraking.round c env⟩
    rw [loop, hround, if_pos (show env.clock.reading t.readings + _ > until_ from hleave)]
  | succ k ih =>
    obtain ⟨fuel, rfl⟩ : ∃ m, fuel = m + 1 := ⟨fuel - 1, by omega⟩
    have hnext : ∀ j, (braked c env t).readings + j = t.readings + (j + 1) := by
      intro j
      rw [braked_readings]
      omega
    obtain ⟨s', hloop, hb⟩ := ih (Nat.lt_of_succ_lt_succ hfuel) (hbraking.round c env)
      (fun j hj => by rw [hnext]; exact hgo (j + 1) (Nat.succ_lt_succ hj))
      (by rw [hnext]; exact hleave)
    refine ⟨s', ?_, ?_⟩
    · have hnow : ¬ env.clock.reading t.readings + kBrakePeriod * nsPerMs > until_ :=
        hgo 0 (Nat.succ_pos k)
      rw [loop, hround, if_neg hnow]
      exact hloop
    · rw [show rounds + (k + 1 + 1) = rounds + 1 + (k + 1) by omega]
      exact hb

/-- Every brake loop is left at some reading, and fuel enough for its deadline suffices. -/
theorem left_at (until_ r : Nat) :
    ∃ k, k < env.clock.reach until_ + 1 ∧
      (∀ j < k, ¬ env.clock.reading (r + j) + kBrakePeriod * nsPerMs > until_) ∧
      env.clock.reading (r + k) + kBrakePeriod * nsPerMs > until_ := by
  have hperiod : 0 < kBrakePeriod * nsPerMs := by decide
  have hends : ∃ k, env.clock.reading (r + k) + kBrakePeriod * nsPerMs > until_ := by
    refine ⟨env.clock.reach until_, ?_⟩
    have hreach := env.clock.reach_spec until_
    have hmono := env.clock.mono (Nat.le_add_left (env.clock.reach until_) r)
    omega
  refine ⟨Nat.find hends, ?_, fun j hj => Nat.find_min hends hj, Nat.find_spec hends⟩
  by_contra hlate
  have hgo := Nat.find_min hends (m := env.clock.reach until_) (by omega)
  have hreach := env.clock.reach_spec until_
  have hmono := env.clock.mono (Nat.le_add_left (env.clock.reach until_) r)
  omega

/-- The stop whose brake loop is left at its reading `k`. -/
theorem stop_motors_at {s : SafeSystem K n} (hs : s.socket = true) {k : Nat}
    (hfuel : k < env.clock.reach (env.clock.reading s.readings + c.brake_time * nsPerMs) + 1)
    (hgo : ∀ j < k, ¬ env.clock.reading (s.readings + 1 + j) + kBrakePeriod * nsPerMs >
      env.clock.reading s.readings + c.brake_time * nsPerMs)
    (hleave : env.clock.reading (s.readings + 1 + k) + kBrakePeriod * nsPerMs >
      env.clock.reading s.readings + c.brake_time * nsPerMs) :
    (stop_motors c env s).bus = s.bus ++ stop_frames c k := by
  obtain ⟨s₁, hloop, hb⟩ := brake_loop_at c env k hfuel (Braking.refl c (stopping s)) hgo hleave
  rw [stop_motors_eq c env hs hloop]
  simp only [hb.bus, stop_frames, Nat.zero_add, List.append_assoc]
  rfl

end Rounds

section Agree
variable {K : Type} [Field K] [LinearOrder K] [IsStrictOrderedRing K] [FloorRing K] {n : Nat}
  (c : Component K n) (env : Env)

def Bus.frame : Bus n → CanFrame
  | .own _ frame => frame
  | .upstream frame => frame

/-- The CAN IDs of the joints, in their order. -/
def can_ids : List Nat := (List.finRange n).map fun i => (c.joint i).can_id

omit [IsStrictOrderedRing K] [FloorRing K] in
theorem stop_frames_frame (k : Nat) :
    (stop_frames c k).map Bus.frame = stop_sequence (can_ids c) k := by
  have heach : ∀ frame : Fin n → CanFrame,
      (each frame).map Bus.frame = (List.finRange n).map frame := by
    intro frame
    rw [each, List.map_map]
    rfl
  rw [stop_frames, stop_sequence, brake_rounds, List.map_append, List.map_flatten,
    List.map_replicate, heach, heach, can_ids, List.map_map, List.map_map,
    funext zero_speed_frame, funext encode_release_frame]
  rfl

/-- The tool reads the same clock as the component, in seconds, and the socket answers the
sends of both alike. -/
structure SameLine (s : SafeSystem K n) (bus : Can.Bus K) (t : Session K) : Prop where
  clock : ∀ k, bus.clock.reading (t.readings + k) =
    (env.clock.reading (s.readings + k) : K) / 1000000000
  sends : ∀ k, bus.calls (t.calls + k) = env.written (s.writes + k)

/-- The clock of the component in seconds. -/
def seconds (clock : SteadyClock Nat) : SteadyClock K where
  reading i := (clock.reading i : K) / 1000000000
  mono _ _ h := div_le_div_of_nonneg_right (Nat.cast_le.mpr (clock.mono h)) (by norm_num)
  reach t := clock.reach ⌈t * 1000000000⌉₊
  reach_spec t := by
    rw [le_div_iff₀ (by norm_num)]
    exact (Nat.le_ceil _).trans (Nat.cast_le.mpr (clock.reach_spec _))

/-- The tool in the place of the component. -/
def tool_bus (rounds : Nat) : Can.Bus K where
  clock := seconds env.clock
  calls := env.written
  receives _ := .timeout
  rounds := rounds

def tool_session (s : SafeSystem K n) : Session K where
  readings := s.readings
  calls := s.writes
  commanded := .fin 0

theorem sameLine_tool (s : SafeSystem K n) (rounds : Nat) :
    SameLine env s (tool_bus env rounds) (tool_session s) :=
  ⟨fun _ => rfl, fun _ => rfl⟩

variable {s : SafeSystem K n} {bus : Can.Bus K} {t : Session K} {c env}

omit [FloorRing K] in
/-- Both brake loops are left at the same reading. -/
theorem SameLine.leaves (h : SameLine env s bus t) (j : Nat) :
    bus.clock.reading t.readings + (c.brake_time : K) / 1000 <
        bus.clock.reading (t.readings + 1 + j) + default_period ↔
      env.clock.reading (s.readings + 1 + j) + kBrakePeriod * nsPerMs >
        env.clock.reading s.readings + c.brake_time * nsPerMs := by
  have hstart := h.clock 0
  have hnow := h.clock (1 + j)
  rw [Nat.add_zero, Nat.add_zero] at hstart
  rw [← Nat.add_assoc, ← Nat.add_assoc] at hnow
  rw [hstart, hnow, gt_iff_lt, ← Nat.cast_lt (α := K), default_period, kBrakePeriod, nsPerMs]
  push_cast
  constructor
  · intro hlt
    linarith
  · intro hlt
    linarith

/-- The tool attempts what the component attempts, up to the first frame that cannot be
sent. It raises an `OSError` there, so it attempts every frame, the release of each motor
among them, exactly when no send before the last one fails. -/
theorem stops_agree (hsocket : s.socket = true) (hline : SameLine env s bus t)
    (hrounds : bus.clock.reach (bus.clock.reading t.readings + (c.brake_time : K) / 1000) ≤
      bus.rounds) :
    ∃ attempts : List (Bus n),
      (stop_motors c env s).bus = s.bus ++ attempts ∧
      (∀ i, .own i (zero_current (c.joint i)) ∈ attempts) ∧
      let run := Can.stop_motors bus (can_ids c) (.fin ((c.brake_time : K) / 1000))
        default_period t
      run.2.trace = t.trace ++ (attempted (fun k => env.written (s.writes + k))
        (attempts.map Bus.frame)).map .sent ∧
      ((∀ k < attempts.length, env.written (s.writes + k) = true) → run.1 = .returned ()) ∧
      ((∃ k < attempts.length, env.written (s.writes + k) = false) →
        run.1 = .raised .os_error) ∧
      (run.2.trace = t.trace ++ (attempts.map Bus.frame).map .sent ↔
        ∀ k, k + 1 < attempts.length → env.written (s.writes + k) = true) := by
  obtain ⟨k, hfuel, hgo, hleave⟩ := left_at env
    (env.clock.reading s.readings + c.brake_time * nsPerMs) (s.readings + 1)
  have hgo' : ∀ j < k, ¬ bus.clock.reading t.readings + (c.brake_time : K) / 1000 <
      bus.clock.reading (t.readings + 1 + j) + default_period :=
    fun j hj h => hgo j hj ((hline.leaves j).mp h)
  have hleave' := (hline.leaves k).mpr hleave
  -- a round that goes on reads the clock before the deadline
  have hk : k ≤ bus.rounds := by
    cases k with
    | zero => exact Nat.zero_le _
    | succ k =>
      have hperiod : (0 : K) < default_period := by norm_num [default_period]
      have hearly : bus.clock.reading (t.readings + 1 + k) <
          bus.clock.reading t.readings + (c.brake_time : K) / 1000 := by
        have h := not_lt.mp (hgo' k (Nat.lt_succ_self k))
        linarith
      have hreach := bus.clock.lt_reach hearly
      omega
  have hcut : Cut bus (stop_sequence (can_ids c) k) (1 + (k + 1)) () t
    (Can.stop_motors bus (can_ids c) (.fin ((c.brake_time : K) / 1000)) default_period t) :=
    cut_stop k hk t hgo' hleave'
  rw [← stop_frames_frame] at hcut
  have hlength : ((stop_frames c k).map Bus.frame).length = (stop_frames c k).length :=
    List.length_map _
  have hsends : (fun k => bus.calls (t.calls + k)) = fun k => env.written (s.writes + k) :=
    funext hline.sends
  have htrace := hcut.trace
  rw [hsends] at htrace
  refine ⟨stop_frames c k, stop_motors_at c env hsocket hfuel hgo hleave, fun i => ?_, htrace,
    fun hall => ?_, ?_, ?_⟩
  · exact List.mem_append_right _ (List.mem_map_of_mem (List.mem_finRange i))
  · refine (hcut.sent fun k hk => ?_).1
    rw [hline.sends]
    exact hall k (hlength ▸ hk)
  · rintro ⟨k, hk, hfails⟩
    refine hcut.failed ⟨k, hlength.symm ▸ hk, ?_⟩
    rw [hline.sends]
    exact hfails
  · have hinj : Function.Injective (Can.Event.sent (K := K)) := fun _ _ h => Can.Event.sent.inj h
    rw [htrace, List.append_right_inj, (List.map_injective_iff.mpr hinj).eq_iff, attempted_eq_iff,
      hlength]

end Agree

def opened : SafeSystem ℚ 1 := { socket := true }

/-- Whenever every send works both sequences are the same. -/
theorem stops_agree_gizmo : ∃ attempts : List (Bus 1),
    (stop_motors gizmo (fault_at 0) opened).bus = attempts ∧
      (Can.stop_motors (tool_bus (fault_at 0) 60000000) [1] (.fin (((60 : Nat) : ℚ) / 1000))
        default_period (tool_session opened)).2.trace = (attempts.map Bus.frame).map .sent := by
  have hrounds : (tool_bus (fault_at 0) 60000000 : Can.Bus ℚ).clock.reach
      ((tool_bus (fault_at 0) 60000000 : Can.Bus ℚ).clock.reading 0 +
        ((60 : Nat) : ℚ) / 1000) ≤ 60000000 := by
    decide +kernel
  obtain ⟨attempts, hbus, -, -, -, -, hsame⟩ := stops_agree (c := gizmo) (s := opened) rfl
    (sameLine_tool (fault_at 0) _ 60000000) hrounds
  exact ⟨attempts, hbus, hsame.mpr fun _ _ => rfl⟩

/-- A first send that fails. -/
def queue_full : Env where
  clock := (fault_at 0).clock
  written k := k ≠ 0
  batch _ := ⟨[], false⟩

/-- A clock that advances by 280 ms from reading to reading. -/
def slow_clock : Env where
  clock := SteadyClock.ticking 280000000 (by decide)
  written _ := true
  batch _ := ⟨[], false⟩

def braking_gizmo : Component ℚ 1 := { gizmo with brake_time := 300 }

/-- The tool reads the clock in doubles. -/
def slow_tool : Can.Bus ℚ where
  clock :=
    { reading := fun i => i * nearest_double (0.28 : ℚ)
      mono := fun _ _ h => mul_le_mul_of_nonneg_right (Nat.cast_le.mpr h) (by decide +kernel)
      reach := fun t => ⌈t / nearest_double (0.28 : ℚ)⌉₊
      reach_spec := fun t => (div_le_iff₀ (by decide +kernel)).mp (Nat.le_ceil _) }
  calls _ := true
  receives _ := .timeout
  rounds := 1

/-- With a first send that fails the component releases the motor all the same, the tool does
not. And at 280 ms a brake of 300 ms has room for another period of 20 ms, but not in doubles. -/
theorem stops_differ :
    (SameLine queue_full opened (tool_bus queue_full 60000000) (tool_session opened) ∧
      encode_release 1 ∈ (stop_motors gizmo queue_full opened).bus.map Bus.frame ∧
      (Can.stop_motors (tool_bus queue_full 60000000) [1] (.fin (((60 : Nat) : ℚ) / 1000))
        default_period (tool_session opened)).2.trace = [.sent (Can.zero_speed 1)]) ∧
    (∀ k < 2, slow_tool.clock.reading k =
        nearest_double ((slow_clock.clock.reading k : ℚ) / 1000000000)) ∧
      (stop_motors braking_gizmo slow_clock opened).bus.map Bus.frame = stop_sequence [1] 1 ∧
      nearest_double (0.3 : ℚ) < nearest_double (slow_tool.clock.reading 1 + nearest_double 0.02) ∧
      (Can.stop_motors slow_tool [1] (.fin (nearest_double 0.3)) (nearest_double 0.02)
        (tool_session opened)).2.trace = (stop_sequence [1] 0).map .sent := by
  refine ⟨⟨sameLine_tool queue_full _ 60000000, ?_, ?_⟩, ?_, ?_, ?_, ?_⟩
  · decide +kernel
  · decide +kernel
  · decide +kernel
  · decide +kernel
  · decide +kernel
  · decide +kernel

end IotRobot.Safe
