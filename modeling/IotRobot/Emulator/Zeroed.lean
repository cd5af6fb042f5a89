import IotRobot.Emulator.Faults
import IotRobot.Emulator.Stopped
import IotRobot.Safe.Zeroing

/-!
# Zeroing a motor from the plugin

After a stop and a temporary origin a motor stays near its new zero: it can only coast. Where it
turned slowly enough, every status frame that it sends from then on passes the plugin's check.
-/

namespace IotRobot.Emulator

open Lib Can

set_option autoImplicit false

section Commands
variable {K : Type} [Field K] [LinearOrder K] [IsStrictOrderedRing K]

theorem set_origin_zero (m : FakeMotor K) : (m.set_origin 0).origin_deg = m.encoder_deg := by
  unfold FakeMotor.set_origin ORIGIN_DEFAULT ORIGIN_PERMANENT
  rw [if_neg (by norm_num), if_neg (by norm_num)]

/-- A command of value zero moves the origin at most to where the motor is; the origin command
does, where the motor takes it. -/
theorem command_origin {mode : Nat} {data : List UInt8} {t : K} {m : FakeMotor K}
    (hzero : ∀ value : K, decode_command mode data = some value → value = 0) :
    ((m.command mode data t).2.origin_deg = m.origin_deg ∨
      (m.command mode data t).2.origin_deg = m.encoder_deg) ∧
    (mode = MODE_SET_ORIGIN → m.ignore_origin = false → data ≠ [] →
      (m.command mode data t).2.origin_deg = m.encoder_deg) := by
  have hsame := (command_cases mode data t m).1
  by_cases horigin : mode = MODE_SET_ORIGIN
  · unfold FakeMotor.command
    cases hvalue : (decode_command mode data : Option K) with
    | none =>
      refine ⟨.inl rfl, fun _ _ hdata => ?_⟩
      unfold decode_command at hvalue
      rw [if_pos horigin, Option.map_eq_none_iff, List.head?_eq_none_iff] at hvalue
      exact absurd hvalue hdata
    | some value =>
      obtain rfl := hzero value hvalue
      dsimp only
      rw [if_pos horigin]
      by_cases htakes : m.ignore_origin = true
      · rw [if_pos htakes]
        exact ⟨.inl rfl, fun _ h => absurd (htakes.symm.trans h) (by decide)⟩
      · rw [if_neg htakes]
        exact ⟨.inr (set_origin_zero _), fun _ _ _ => set_origin_zero _⟩
  · exact ⟨.inl (hsame.origin_deg horigin), fun h => absurd h horigin⟩

end Commands

section Runs
variable {K : Type} [Field K] [LinearOrder K] [IsStrictOrderedRing K] {exp : K → K}

/-- The motor is driven by nothing, and coasts within a distance of its zero. -/
structure Near (B : K) (m : EmulatedMotor K) : Prop where
  undriven : Undriven m.toFakeMotor
  position_deg : |m.position_deg| + COAST_TIME_CONSTANT * |m.dps| ≤ B

/-- A command of value zero to a motor that is driven by nothing. -/
theorem command_near {B : K} {m : EmulatedMotor K} {command : Command K} (h : Near B m)
    (hpassive : Passive K command.mode command.data)
    (hzero : ∀ value : K, decode_command command.mode command.data = some value → value = 0) :
    Near B { m with toFakeMotor := (m.toFakeMotor.command command.mode command.data command.time).2 } := by
  apply Near.mk (command_passive hpassive h.undriven command.time)
  have hsame := (command_cases command.mode command.data command.time m.toFakeMotor).1
  have hdps : ∀ m' : FakeMotor K, m'.pole_pairs = m.pole_pairs → m'.gear_ratio = m.gear_ratio →
      EmulatedMotor.dps { m with toFakeMotor := m' } = m.dps := by
    intro m' hpoles hgear
    simp only [EmulatedMotor.dps, EmulatedMotor.dps_of, hpoles, hgear]
  rw [hdps _ hsame.pole_pairs hsame.gear_ratio]
  have hrest : 0 ≤ COAST_TIME_CONSTANT * |m.dps| :=
    mul_nonneg (by norm_num [COAST_TIME_CONSTANT]) (abs_nonneg _)
  have hnear := h.position_deg
  unfold EmulatedMotor.position_deg at hnear ⊢
  rw [hsame.encoder_deg]
  rcases (command_origin hzero (t := command.time)).1 with horigin | horigin
  · rw [horigin]
    exact hnear
  · rw [horigin, sub_self, abs_zero, zero_add]
    have hpos := abs_nonneg (m.encoder_deg - m.origin_deg)
    linarith

/-- An event in which the motor hears nothing, or a command of value zero that drives nothing. -/
theorem MotorStep.near {B : K} {can_id : Nat} {s s' : FakeCubeMars K} {e : Event K} {m m' : EmulatedMotor K}
    (hstep : MotorStep exp can_id s s' e m m') (hexp : Exponential exp) (hs : m.Sound) (h : Near B m)
    (hhands : ¬ Handled can_id e)
    (hheard : ∀ c : Command K, commands_for can_id s'.log = commands_for can_id s.log ++ [c] →
      Passive K c.mode c.data ∧ ∀ value : K, decode_command c.mode c.data = some value → value = 0) :
    Near B m' := by
  cases hstep with
  | rest => exact h
  | commanded now frame at_ result hid hcommand hlog hlast =>
    obtain ⟨hpassive, hzero⟩ := hheard ⟨at_, can_id, frame.id >>> 8, frame.data⟩ (by simp [hlog, commands_for])
    rw [EmulatedMotor.command_base hcommand]
    exact command_near h hpassive hzero
  | ticked now received htick hdue hclock hlog hlast =>
    obtain ⟨m₀, hcalm, hmoved, -⟩ := tick_calms htick
    have hg := (hcalm.sound hs).geared
    obtain ⟨hundriven, hcovers⟩ := step_undriven hexp hg (hcalm.undriven h.undriven) hmoved
    obtain ⟨encoder_deg, speed, hchange⟩ := EmulatedMotor.step_moves hg hmoved
    apply Near.mk hundriven
    have horigin : m'.origin_deg = m.origin_deg := by
      rw [hchange.moved]
      exact hcalm.origin_deg
    rw [hcalm.encoder_deg, hcalm.dps] at hcovers
    have hnear := h.position_deg
    unfold EmulatedMotor.position_deg at hnear ⊢
    rw [horigin]
    have htriangle := abs_add_le (m'.encoder_deg - m.encoder_deg) (m.encoder_deg - m.origin_deg)
    rw [sub_add_sub_cancel] at htriangle
    linarith
  | placed _ position_deg => exact absurd ⟨position_deg, .inl rfl⟩ hhands
  | cycled _ position_deg => exact absurd ⟨position_deg, .inr rfl⟩ hhands
  | injected => exact ⟨⟨h.undriven.position, h.undriven.speed⟩, h.position_deg⟩

/-- The event in which an undriven motor takes a temporary origin. -/
theorem MotorStep.origin_near {can_id : Nat} {s s' : FakeCubeMars K} {e : Event K} {m m' : EmulatedMotor K}
    (hstep : MotorStep exp can_id s s' e m m') (hs : m.Sound) (hu : Undriven m.toFakeMotor)
    (htakes : m.ignore_origin = false) {origin : Command K}
    (hlog : commands_for can_id s'.log = commands_for can_id s.log ++ [origin]) (hid : origin.can_id < 256)
    (hpassive : Passive K origin.mode origin.data)
    (hzero : ∀ value : K, decode_command origin.mode origin.data = some value → value = 0)
    (hframe : origin.frame = ⟨Safe.kModeSetOrigin <<< 8 ||| origin.can_id, [Safe.kTemporaryOrigin]⟩) :
    Near (COAST_TIME_CONSTANT * |m.dps|) m' := by
  rcases hstep.starts_not hs with ⟨hsame, -⟩ | ⟨command, hsnoc, hmoved⟩
  · rw [hlog] at hsame
    simp at hsame
  obtain rfl : origin = command := by
    rw [hlog] at hsnoc
    simpa using hsnoc
  obtain ⟨hmode, hdata⟩ := frame_mode hid hframe
  rw [Nat.shiftRight_eq_zero _ _ hid, Nat.or_zero] at hmode
  have hsame := (command_cases origin.mode origin.data origin.time m.toFakeMotor).1
  have hplaced := (command_origin hzero (t := origin.time)).2 hmode htakes (by simp [hdata])
  rw [hmoved]
  apply Near.mk (command_passive hpassive hu origin.time)
  simp only [EmulatedMotor.position_deg, EmulatedMotor.dps, EmulatedMotor.dps_of, hsame.encoder_deg, hplaced,
    hsame.pole_pairs, hsame.gear_ratio, sub_self, abs_zero, zero_add, le_refl]

variable [FloorRing K] {s t : FakeCubeMars K} {es : List (Event K)} {can_id : Nat} {m : EmulatedMotor K}

theorem run_near {B : K} (hexp : Exponential exp) (hr : Run (next exp) s es t)
    (hm : s.motors.get can_id = some m) (hs : m.Sound) (h : Near B m) (hhands : ∀ e ∈ es, ¬ Handled can_id e)
    {cs : List (Command K)} (hlog : commands_for can_id t.log = commands_for can_id s.log ++ cs)
    (hheard : ∀ c ∈ cs, Passive K c.mode c.data ∧
      ∀ value : K, decode_command c.mode c.data = some value → value = 0) :
    ∃ m', t.motors.get can_id = some m' ∧ m'.Sound ∧ Near B m' := by
  induction hr generalizing cs with
  | nil => exact ⟨m, hm, hs, h⟩
  | snoc hrun hn ih =>
    rename_i es₁ u v e
    obtain ⟨m₁, cs₁, hm₁, hs₁, hlog₁⟩ := run_motor hrun hm hs
    obtain ⟨m', hm', hstep⟩ := motor_step hn hm₁
    have hpart := hstep.heard_before hs₁ hlog₁ hlog
    obtain ⟨m₂, hm₂, -, hnear⟩ := ih (fun d hd => hhands d (List.mem_append_left _ hd)) hlog₁
      fun c hc => hheard c (hpart.1 c hc)
    obtain rfl := Option.some.inj (hm₂.symm.trans hm₁)
    exact ⟨m', hm', hstep.sound hs₁, hstep.near hexp hs₁ hnear (hhands e (by simp))
      fun c hc => hheard c (hpart.2 c hc)⟩

end Runs

section Plugin
variable {K : Type} [Field K] [LinearOrder K] [IsStrictOrderedRing K] [FloorRing K]

/-- A status of a motor near its zero reads near zero. -/
theorem near_reading {B : K} {m : EmulatedMotor K} (h : Near B m) (hB : B ≤ 0.95) (hid : m.can_id < 256)
    {rx : Safe.RxFrame} (hframe : can_frame rx = m.status) :
    |(reading rx : Status K).position_deg| ≤ Safe.kZeroToleranceDeg := by
  obtain ⟨status, hdecode, hreports⟩ := decode_encode_status hid m.position_deg m.speed_erpm m.current_a
    (m.temperature_c : K) m.error
  have hstatus : decode_status (can_frame rx) = some status := by rw [hframe]; exact hdecode
  have hshift : Can.IsStatus rx := by
    unfold Can.IsStatus
    rw [hframe]
    exact status_id_shift hid
  rw [decode_can_frame fun _ => hshift] at hstatus
  split_ifs at hstatus
  obtain rfl := Option.some.inj hstatus
  have hrest : 0 ≤ COAST_TIME_CONSTANT * |m.dps| :=
    mul_nonneg (by norm_num [COAST_TIME_CONSTANT]) (abs_nonneg _)
  have hposition : |m.position_deg| ≤ 0.95 := by linarith [h.position_deg]
  obtain ⟨hlow, hhigh⟩ := abs_le.mp hposition
  have hnear := hreports.within.1 ⟨by norm_num at hlow ⊢; linarith, by norm_num at hhigh ⊢; linarith⟩
  have hsum := abs_sub_abs_le_abs_sub (reading rx : Status K).position_deg m.position_deg
  unfold Safe.kZeroToleranceDeg
  norm_num at hnear hposition ⊢
  linarith

omit [IsStrictOrderedRing K] [FloorRing K] in
/-- After a drain a joint reads what the last of its frames says, as of the drain. -/
theorem drained_last {n : Nat} (c : Safe.Component K n) (env : Safe.Env) (s : Safe.SafeSystem K n) (i : Fin n)
    {P : Safe.RxFrame → Prop}
    (hsome : ∃ rx ∈ (env.batch s.drains).frames, rx.of (c.joint i) = true)
    (hall : ∀ rx ∈ (env.batch s.drains).frames, rx.of (c.joint i) = true → P rx) :
    ∃ rx, P rx ∧
      ((Safe.drained c env s).joints i).raw_position * Safe.kDegPerCount = (reading rx : Status K).position_deg ∧
      ((Safe.drained c env s).joints i).last_status = env.clock.reading s.readings := by
  have hjoint : (Safe.drained c env s).joints i =
      ((Safe.frames_of (c.joint i) ⟨env.clock.reading s.readings, (env.batch s.drains).frames⟩).foldl
        (fun j frame => Safe.hear (env.clock.reading s.readings) frame j) (s.joints i, false)).1 :=
    congrArg Prod.fst (Safe.absorb_joint c _ _ _ i)
  have hframes : ∀ rx ∈ Safe.frames_of (c.joint i) ⟨env.clock.reading s.readings, (env.batch s.drains).frames⟩,
      P rx := fun rx hrx => hall rx (List.mem_filter.mp hrx).1 (List.mem_filter.mp hrx).2
  obtain ⟨rx, hrx, hof⟩ := hsome
  have hnone : Safe.frames_of (c.joint i) ⟨env.clock.reading s.readings, (env.batch s.drains).frames⟩ ≠ [] :=
    List.ne_nil_of_mem (List.mem_filter.mpr ⟨hrx, hof⟩)
  rw [hjoint]
  generalize Safe.frames_of (c.joint i) ⟨env.clock.reading s.readings, (env.batch s.drains).frames⟩ = frames at *
  obtain ⟨front, last, rfl⟩ := (List.eq_nil_or_concat frames).resolve_left hnone
  rw [List.concat_eq_append] at hframes ⊢
  exact ⟨last, hframes last (by simp), (hear_stores _ _ _ _).position, (Safe.hear_status _ _ _ (by simp)).2⟩

/-- A motor that is stopped and zeroed by the plugin: after the origin it stays within one time
constant of the speed it had, whatever else the plugin sends before its next activation, and if
that is slow, its status frames from then on pass the check of the zeroing. -/
theorem zeroed_motor_accepted {exp : K → K} (hexp : Exponential exp)
    {n : Nat} {c : Safe.Component K n} {env : Safe.Env} {es : List (Safe.Event K n)} {e : Safe.Event K n}
    {m m' : Safe.Managed K n}
    (hplugin : Run (Safe.next c env) {} es m) (hidle : m.system.stopped = true) (hevent : Safe.next c env m e m')
    {attempts : List (Safe.Bus n)} (hbus : m'.system.bus = m.system.bus ++ attempts)
    {ids : List Nat} {rate position_speed timeout booted : K} {s₀ s u v t : FakeCubeMars K}
    {ds₀ ds₁ ds₂ : List (Event K)} {d : Event K}
    (hstart : FakeCubeMars.start ids rate position_speed timeout booted = some s₀)
    (hbytes : ∀ k ∈ ids, k < 256)
    (hbefore : Run (next exp) s₀ ds₀ s) (hheard : Run (next exp) s ds₁ u) (hzero : next exp u d v)
    (hafter : Run (next exp) v ds₂ t) (i : Fin n) (hid : (c.joint i).can_id ∈ ids)
    {heard more : List (Command K)} {origin : Command K} {mu : EmulatedMotor K}
    (hlog₁ : commands_for (c.joint i).can_id u.log = commands_for (c.joint i).can_id s.log ++ heard)
    (hlog₂ : commands_for (c.joint i).can_id v.log = commands_for (c.joint i).can_id u.log ++ [origin])
    (hlog₃ : commands_for (c.joint i).can_id t.log = commands_for (c.joint i).can_id v.log ++ more)
    (hdelivered : ((heard ++ origin :: more).map Command.frame).Sublist (attempts.map bus_frame))
    (hstopped : ∃ command ∈ heard, command.frame = Safe.zero_current (c.joint i))
    (horigin : origin.frame = Safe.set_origin (c.joint i))
    (hmu : u.motors.get (c.joint i).can_id = some mu) (htakes : mu.ignore_origin = false)
    (hhands : ∀ d ∈ ds₂, ¬ Handled (c.joint i).can_id d) :
    (∃ mt, t.motors.get (c.joint i).can_id = some mt ∧
      |mt.position_deg| ≤ COAST_TIME_CONSTANT * |mu.dps|) ∧
    (COAST_TIME_CONSTANT * |mu.dps| ≤ 0.95 →
      ∃ frames, t.sent = v.sent ++ frames ∧
        ∀ (env : Safe.Env) (sent : Fin n → Nat) (x : Safe.SafeSystem K n),
          sent i < env.clock.reading x.readings →
          (∃ rx ∈ (env.batch x.drains).frames, rx.of (c.joint i) = true) →
          (∀ rx ∈ (env.batch x.drains).frames, rx.of (c.joint i) = true →
            can_frame rx ∈ frames ∧ (can_frame rx).id = status_id (c.joint i).can_id) →
          Safe.zeroed c sent (Safe.drained c env x) i = true) := by
  obtain ⟨sent, hsends, hharmless⟩ := (Safe.quiet_step c env (Safe.run_inv c env hplugin) hidle hevent).1
  obtain rfl := List.append_cancel_left (hbus.symm.trans hsends)
  obtain ⟨hmotor, hempty⟩ := start_motor hstart hid
  have hall : commands_for (c.joint i).can_id t.log =
      commands_for (c.joint i).can_id s.log ++ (heard ++ origin :: more) := by
    rw [hlog₃, hlog₂, hlog₁]
    simp
  have hown : ∀ command ∈ heard ++ origin :: more, command.can_id = (c.joint i).can_id ∧ command.can_id < 256 ∧
      Passive K command.mode command.data ∧
      ∀ value : K, decode_command command.mode command.data = some value → value = 0 := fun command hcommand =>
    delivered_harmless hharmless hempty ((hbefore.append (hheard.snoc hzero)).append hafter) hall hdelivered hcommand
  -- the stop leaves the motor undriven, and the origin puts its zero where it is
  obtain ⟨m₁, cs₀, hm₁, hs₁, -⟩ := run_motor hbefore hmotor (sound_new _ _)
  obtain ⟨stop, hstop_heard, hstop_frame⟩ := hstopped
  have hstop_own := hown stop (List.mem_append_left _ hstop_heard)
  have hstops := (stop_frame_stops hstop_own.2.1 hstop_own.1.symm (.inr hstop_frame)).1
  obtain ⟨m₂, hm₂, hsu, hundriven, -⟩ := run_stops hheard hm₁ hs₁ hlog₁
    fun command hcommand => (hown command (List.mem_append_left _ hcommand)).2.2.1
  obtain rfl := Option.some.inj (hm₂.symm.trans hmu)
  have hu := hundriven (.inr ⟨stop, hstop_heard, hstops⟩)
  obtain ⟨mv, hmv, hstep⟩ := motor_step hzero hmu
  have horigin_own := hown origin (by simp)
  have hnear := hstep.origin_near hsu hu htakes hlog₂ horigin_own.2.1 horigin_own.2.2.1 horigin_own.2.2.2
    (horigin_own.1.symm ▸ horigin)
  -- and near it stays
  have hstays : ∀ ds ds' w mw, ds₂ = ds ++ ds' → Run (next exp) v ds w → Run (next exp) w ds' t →
      w.motors.get (c.joint i).can_id = some mw → Near (COAST_TIME_CONSTANT * |m₂.dps|) mw := by
    intro ds ds' w mw hds hw hrest hmw
    obtain ⟨mw', part, hmw', hsw, hpart⟩ := run_motor hw hmv (hstep.sound hsu)
    obtain ⟨-, rest, -, -, hlog_rest⟩ := run_motor hrest hmw' hsw
    have hmore : part ++ rest = more := by
      rw [hlog_rest, hpart, List.append_assoc] at hlog₃
      exact List.append_cancel_left hlog₃
    obtain ⟨mw'', hmw'', -, hresult⟩ := run_near hexp hw hmv (hstep.sound hsu) hnear
      (fun d hd => hhands d (hds ▸ List.mem_append_left _ hd)) hpart fun command hcommand =>
        (hown command (by simp [← hmore, hcommand])).2.2
    obtain rfl := Option.some.inj (hmw''.symm.trans hmw)
    exact hresult
  constructor
  · obtain ⟨mt, -, hmt, -, -⟩ := run_motor hafter hmv (hstep.sound hsu)
    have hnear_t := hstays ds₂ [] t mt (List.append_nil _).symm hafter .nil hmt
    have hrest : 0 ≤ COAST_TIME_CONSTANT * |mt.dps| :=
      mul_nonneg (by norm_num [COAST_TIME_CONSTANT]) (abs_nonneg _)
    exact ⟨mt, hmt, by linarith [hnear_t.position_deg]⟩
  · intro hslow
    have hbyte := hbytes _ hid
    have hkeyed := run_keyed (hbefore.append (hheard.snoc hzero)) (keyed_start hstart hbytes)
    obtain ⟨frames, hsent, hshown⟩ := run_sent hafter hkeyed hbyte _ hstays
    refine ⟨frames, hsent, fun env sent x hlater hsome hframes => ?_⟩
    obtain ⟨rx, ⟨hrx, hrx_id⟩, hposition, hstatus⟩ := drained_last c env x i hsome hframes
    obtain ⟨motor, hmotor_near, hown_id, hframe⟩ := hshown _ hrx hrx_id
    have hreads := near_reading hmotor_near hslow (by rw [hown_id]; exact hbyte) hframe
    unfold Safe.zeroed
    rw [hposition, hstatus, decide_eq_true hlater, decide_eq_true hreads]
    simp

end Plugin

/-- The driven motor hears the release of the activation. -/
def freed : FakeCubeMars ℚ :=
  after_round driven 0 (some (Safe.zero_current (Safe.zeroing.joint (Fin.last 0)), 0))

/-- And then its origin. -/
def originated : FakeCubeMars ℚ :=
  after_round freed 0 (some (Safe.set_origin (Safe.zeroing.joint (Fin.last 0)), 0))

def freed_motor : EmulatedMotor ℚ := { driven_motor with mode := .idle }

theorem zeroed_motor_accepted_gizmo :
    ∃ mt, originated.motors.get 1 = some mt ∧ |mt.position_deg| ≤ COAST_TIME_CONSTANT * |freed_motor.dps| := by
  have hplugin : Run (Safe.next Safe.zeroing (Safe.fault_at 9)) {} [.on_configure true .SUCCESS] (Safe.configured 9) :=
    .single ⟨rfl, rfl⟩
  have hevent : Safe.next Safe.zeroing (Safe.fault_at 9) (Safe.configured 9) (.on_activate .SUCCESS)
      (Safe.perform Safe.zeroing (Safe.fault_at 9) (Safe.configured 9) (.on_activate .SUCCESS)) := ⟨rfl, rfl⟩
  have hbus : (Safe.perform Safe.zeroing (Safe.fault_at 9) (Safe.configured 9) (.on_activate .SUCCESS)).system.bus =
      (Safe.configured 9).system.bus ++
        [.own 0 (Safe.zero_current (Safe.zeroing.joint 0)), .own 0 (Safe.set_origin (Safe.zeroing.joint 0))] := by
    decide +kernel
  have hheard : Run (next rational_exp) driven
      [.round 0 (some (Safe.zero_current (Safe.zeroing.joint 0), 0))] freed :=
    .single (after_round_next (by decide +kernel) (by decide +kernel))
  have hzero : next rational_exp freed
      (.round 0 (some (Safe.set_origin (Safe.zeroing.joint 0), 0))) originated :=
    after_round_next (by decide +kernel) (by decide +kernel)
  have hlog₁ : commands_for 1 freed.log = commands_for 1 driven.log ++ [⟨0, 1, 1, int32_bytes 0⟩] := by
    decide +kernel
  have hlog₂ : commands_for 1 originated.log = commands_for 1 freed.log ++ [⟨0, 1, 5, [0]⟩] := by
    decide +kernel
  have hmotor : freed.motors.get 1 = some freed_motor := by decide +kernel
  exact (zeroed_motor_accepted rational_exponential hplugin (by decide +kernel) hevent hbus one_motor_starts (by decide)
    driven_run hheard hzero .nil 0 (by decide) hlog₁ hlog₂ (List.append_nil _).symm (by decide +kernel)
    ⟨_, List.mem_singleton.mpr rfl, rfl⟩ rfl hmotor rfl (by simp)).1

end IotRobot.Emulator
