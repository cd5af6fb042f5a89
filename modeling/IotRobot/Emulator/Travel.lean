import IotRobot.Emulator.Rest

/-!
# How far a motor turns without commands

Between two commands the motor's way depends on the time alone, not on the ticks that divide
it. With a CAN timeout of its own it turns no longer than that without a command, and then
coasts.
-/

namespace IotRobot.Emulator

open Lib Can

set_option autoImplicit false

section Steps
variable {K : Type} [Field K] [LinearOrder K] {exp : K → K}

/-- An event of a run in which the clock advances from tick to tick. -/
def next_timed [FloorRing K] (exp : K → K) (s : FakeCubeMars K) (e : Event K) (s' : FakeCubeMars K) :
    Prop :=
  next exp s e s' ∧ ∀ now received, e = .round now received → s.next_tick ≤ now → s.last < now

/-- The clock of the ticks does not go back, the timeout stays, only `schedule` adds actions, and
an action stays until the tick at which it is due. -/
theorem next_frame [FloorRing K] {s s' : FakeCubeMars K} {e : Event K} (hn : next exp s e s') :
    s.last ≤ s'.last ∧ s'.timeout = s.timeout ∧ (∀ p ∈ s'.events, p ∈ s.events ∨ e = .schedule p.1 p.2) ∧
      ∀ p ∈ s.events, s'.last < p.1 → p ∈ s'.events := by
  have hquiet : ∀ {s' : FakeCubeMars K}, s'.last = s.last → s'.timeout = s.timeout → s'.events = s.events →
      s.last ≤ s'.last ∧ s'.timeout = s.timeout ∧ (∀ p ∈ s'.events, p ∈ s.events ∨ e = .schedule p.1 p.2) ∧
        ∀ p ∈ s.events, s'.last < p.1 → p ∈ s'.events :=
    fun hlast htimeout hevents =>
      ⟨hlast.ge, htimeout, fun p hp => .inl (hevents ▸ hp), fun p hp _ => hevents ▸ hp⟩
  have hmotor : ∀ k f, (s.with_motor k f).timeout = s.timeout ∧ (s.with_motor k f).events = s.events := by
    intro k f
    unfold FakeCubeMars.with_motor
    cases s.motors.get k <;> exact ⟨rfl, rfl⟩
  cases hn with
  | round now received hclock hround =>
    rcases round_cases hround with ⟨motors, motors', -, -, -, -, -, hlast, htimeout, hevents, -⟩ | hrest
    · refine ⟨by rw [hlast]; exact hclock, htimeout, fun p hp => ?_, fun p hp hlater => ?_⟩
      · rw [hevents] at hp
        exact .inl (List.mem_of_mem_filter hp)
      · rw [hlast] at hlater
        rw [hevents]
        exact List.mem_filter.mpr ⟨hp, by simpa using hlater⟩
    rcases hrest with rfl | ⟨frame, at_, -, hreceive⟩
    · exact hquiet rfl rfl rfl
    rcases receive_cases hreceive with rfl | ⟨m, m', result, -, -, rfl⟩
    · exact hquiet rfl rfl rfl
    · exact hquiet rfl rfl rfl
  | schedule due action =>
    refine ⟨le_rfl, rfl, fun p hp => ?_, fun p hp _ => List.mem_append_left _ hp⟩
    rcases List.mem_append.mp hp with hp | hp
    · exact .inl hp
    · rw [List.mem_singleton.mp hp]
      exact .inr rfl
  | set_position k position_deg => exact hquiet (with_motor_log k _).2 (hmotor k _).1 (hmotor k _).2
  | power_cycle k position_deg => exact hquiet (with_motor_log k _).2 (hmotor k _).1 (hmotor k _).2
  | inject k stuck ignore_origin load_current_a =>
    exact hquiet (with_motor_log k _).2 (hmotor k _).1 (hmotor k _).2

theorem run_frame [FloorRing K] {s t : FakeCubeMars K} {es : List (Event K)}
    (hr : Run (next_timed exp) s es t) : s.last ≤ t.last ∧ t.timeout = s.timeout := by
  apply hr.relates (fun s t => s.last ≤ t.last ∧ t.timeout = s.timeout) (fun _ => ⟨le_rfl, rfl⟩)
  · intro a b c hab hbc
    exact ⟨hab.1.trans hbc.1, hbc.2.trans hab.2⟩
  · intro a b e hn
    obtain ⟨hlast, htimeout, -⟩ := next_frame hn.1
    exact ⟨hlast, htimeout⟩

/-- The motor neither turns nor is driven faster than a speed. -/
structure Bounded (V : K) (m : EmulatedMotor K) : Prop where
  dps : |m.dps| ≤ V
  speed : m.mode = .speed → |m.dps_of m.target_erpm| ≤ V
  position : m.mode = .position → |m.move_dps| ≤ V

variable {V : K} {m m₀ m' : EmulatedMotor K} {dt : K}

theorem Calmed.bounded (h : Calmed m m₀) (hb : Bounded V m) : Bounded V m₀ := by
  refine ⟨by rw [h.dps]; exact hb.dps, fun hspeed => ?_, fun hposition => ?_⟩
  · rcases h.mode with hmode | hmode
    · rw [EmulatedMotor.dps_of, h.target_erpm, h.pole_pairs, h.gear_ratio]
      exact hb.speed (hmode.symm.trans hspeed)
    · rw [hmode] at hspeed
      cases hspeed
  · rcases h.mode with hmode | hmode
    · rw [h.move_dps]
      exact hb.position (hmode.symm.trans hposition)
    · rw [hmode] at hposition
      cases hposition

variable [IsStrictOrderedRing K]

/-- In a step the motor turns no further than its greatest speed allows, and it keeps it. -/
theorem step_bounded (hexp : Exponential exp) (hg : m.Geared) (hb : Bounded V m) (hdt : 0 < dt)
    (h : m.step exp dt = .ok m') :
    |m'.encoder_deg - m.encoder_deg| ≤ V * dt ∧ Bounded V m' := by
  have hV : 0 ≤ V := (abs_nonneg _).trans hb.dps
  have hkeep : ∀ encoder_deg speed, EmulatedMotor.Stepped m dt encoder_deg speed m' → |speed| ≤ V →
      Bounded V m' := by
    intro encoder_deg speed hstep hspeed
    refine ⟨by rw [hstep.dps]; exact hspeed, ?_, ?_⟩
    · rw [hstep.moved]
      exact hb.speed
    · rw [hstep.moved]
      exact hb.position
  have hturns : ∀ speed, EmulatedMotor.Stepped m dt m.encoder_deg speed m' → |speed| ≤ V →
      |m'.encoder_deg - m.encoder_deg| ≤ V * dt ∧ Bounded V m' := by
    intro speed hstep hspeed
    apply And.intro _ (hkeep _ _ hstep hspeed)
    rw [hstep.moved, add_sub_cancel_left, abs_mul, abs_of_pos hdt]
    exact mul_le_mul_of_nonneg_right hspeed hdt.le
  by_cases hheld : m.error ≠ 0 ∨ m.stuck ∨ m.mode = .brake
  · exact hturns 0 (EmulatedMotor.step_held hg hheld h) (by simpa using hV)
  by_cases hspeed : m.mode = .speed
  · exact hturns _ (EmulatedMotor.step_speed hg hheld hspeed h) (hb.speed hspeed)
  by_cases hposition : m.mode = .position
  · obtain ⟨hto, encoder_deg, speed, hslow, hstep⟩ := EmulatedMotor.step_position hg hheld hposition hdt h
    apply And.intro _ (hkeep _ _ hstep (hslow.trans (hb.position hposition)))
    have horigin : m'.origin_deg = m.origin_deg := by rw [hstep.moved]
    have hway := abs_approach_sub m.target_deg (m.move_dps * dt) m.position_deg
    rw [← hto, abs_mul, abs_of_pos hdt] at hway
    have hsame : m'.position_deg - m.position_deg = m'.encoder_deg - m.encoder_deg := by
      simp [EmulatedMotor.position_deg, horigin]
    rw [← hsame]
    exact hway.trans (mul_le_mul_of_nonneg_right (hb.position hposition) hdt.le)
  rcases EmulatedMotor.step_coast hg hheld hspeed hposition h with ⟨-, hstep⟩ | ⟨hnone, -⟩
  · apply hturns _ hstep
    have htau : (0 : K) < COAST_TIME_CONSTANT := by norm_num [COAST_TIME_CONSTANT]
    have hdecay := hexp.neg_le_one (div_nonneg hdt.le htau.le)
    have hpos := hexp.pos (-(dt / COAST_TIME_CONSTANT))
    rw [abs_mul, neg_div, abs_of_pos hpos]
    calc |m.dps| * exp (-(dt / COAST_TIME_CONSTANT)) ≤ |m.dps| * 1 :=
          mul_le_mul_of_nonneg_left hdecay (abs_nonneg _)
      _ ≤ V := by rw [mul_one]; exact hb.dps
  · exact absurd hdt (not_lt.mpr hnone)

end Steps

section Runs
variable {K : Type} [Field K] [LinearOrder K] [IsStrictOrderedRing K] {exp : K → K}

/-- A tick after the timeout finds the motor idle, or releases it. -/
theorem late_tick_releases {m m₀ : EmulatedMotor K} {timeout now r : K} {actions : List Action}
    (htimeout : 0 < timeout) (hlast : m.last_command = some r) (hlate : r + timeout < now) (hcalm : Calmed m m₀)
    (h : m₀.mode = .idle ∨ timed_out timeout now m₀ = false ∧ m₀ = actions.foldl Action.apply m) :
    m₀.mode = .idle := by
  rcases h with hidle | ⟨hout, -⟩
  · exact hidle
  · have hexpired : timeout < now - r := by linarith
    simpa [timed_out, htimeout, hcalm.last_command, hlast, hexpired] using hout

variable [FloorRing K] {ids : List Nat} {rate position_speed timeout booted : K} {s₀ s t : FakeCubeMars K}
  {ds es : List (Event K)} {can_id : Nat} {m : EmulatedMotor K} {V r : K}

/-- Where a motor is that heard nothing since `r`: within its timeout it has turned with its
greatest speed at most; after it, it is released. -/
inductive Overrun (V r timeout last now : K) (m m' : EmulatedMotor K) : Prop
  | turning (hearly : now ≤ r + timeout) (hbounded : Bounded V m') (hlast : m'.last_command = some r)
      (hway : |m'.encoder_deg - m.encoder_deg| ≤ V * (now - last))
  | coasting (hlate : r + timeout < now) (hidle : m'.mode = .idle)
      (hway : |m'.encoder_deg - m.encoder_deg| + COAST_TIME_CONSTANT * |m'.dps| ≤
        V * (r + timeout - last) + COAST_TIME_CONSTANT * V)

theorem overrun_tick (hexp : Exponential exp) {now last before : K} {m' m'' : EmulatedMotor K}
    {actions : List Action} (hs : m'.Sound) (htimeout : 0 < timeout) (hstrict : last < now)
    (h : Overrun V r timeout before last m m')
    (htick : tick_motor exp timeout now (now - last) (actions.foldl Action.apply m') = .ok m'') :
    Overrun V r timeout before now m m'' := by
  obtain ⟨m₀, hcalm, hstep, hcases⟩ := tick_calms htick
  have hg := (hcalm.sound hs).geared
  have htau : (0 : K) < COAST_TIME_CONSTANT := by norm_num [COAST_TIME_CONSTANT]
  have htriangle := abs_sub_le m''.encoder_deg m'.encoder_deg m.encoder_deg
  obtain ⟨encoder_deg, speed, hmoved⟩ := EmulatedMotor.step_moves hg hstep
  have hmode : m''.mode = m₀.mode := by rw [hmoved.moved]
  -- an idle motor coasts
  have hcoasts : m₀.mode = .idle →
      |m''.encoder_deg - m'.encoder_deg| + COAST_TIME_CONSTANT * |m''.dps| ≤ COAST_TIME_CONSTANT * |m'.dps| := by
    intro hidle
    have hcovers := (step_undriven hexp hg (.of_idle hidle) hstep).2
    rwa [hcalm.encoder_deg, hcalm.dps] at hcovers
  cases h with
  | turning hearly hbounded hlast hway =>
    by_cases hnow : now ≤ r + timeout
    · obtain ⟨hturn, hbounded'⟩ := step_bounded hexp hg (hcalm.bounded hbounded) (sub_pos.mpr hstrict) hstep
      rw [hcalm.encoder_deg] at hturn
      refine .turning hnow hbounded' ?_ ?_
      · rw [hmoved.moved]
        exact hcalm.last_command.trans hlast
      · linarith
    · have hlate := not_le.mp hnow
      have hidle := late_tick_releases htimeout hlast hlate hcalm hcases
      have hV : 0 ≤ V := (abs_nonneg _).trans hbounded.dps
      have hcover := hcoasts hidle
      have hspeed := mul_le_mul_of_nonneg_left hbounded.dps htau.le
      have hearlier : V * (last - before) ≤ V * (r + timeout - before) :=
        mul_le_mul_of_nonneg_left (by linarith) hV
      exact .coasting hlate (hmode.trans hidle) (by linarith)
  | coasting hlate hidle hway =>
    have hidle₀ : m₀.mode = .idle := by
      rcases hcalm.mode with h | h
      · exact h.trans hidle
      · exact h
    have hcover := hcoasts hidle₀
    exact .coasting (hlate.trans hstrict) (hmode.trans hidle₀) (by linarith)

omit [Field K] [LinearOrder K] [IsStrictOrderedRing K] [FloorRing K] in
/-- If a run logs nothing, then neither does it before its last event nor by it. -/
theorem silent_logs {log log₁ log₂ cs : List (Command K)} (h₁ : commands_for can_id log₁ = commands_for can_id log ++ cs)
    (h : commands_for can_id log₂ = commands_for can_id log) {P : Prop} {Q : Command K → Prop}
    (hlast : (commands_for can_id log₂ = commands_for can_id log₁ ∧ P) ∨
      ∃ c, commands_for can_id log₂ = commands_for can_id log₁ ++ [c] ∧ Q c) :
    commands_for can_id log₁ = commands_for can_id log ∧ commands_for can_id log₂ = commands_for can_id log₁ := by
  rcases hlast with ⟨hsame, -⟩ | ⟨c, hsnoc, -⟩
  · exact ⟨hsame.symm.trans h, hsame⟩
  · have hlen := congrArg List.length (h.symm.trans hsnoc)
    rw [h₁, List.length_append, List.length_append, List.length_singleton] at hlen
    omega

theorem overrun_run (hexp : Exponential exp) (hr : Run (next_timed exp) s es t)
    (hm : s.motors.get can_id = some m) (hs : m.Sound) (htimeout : 0 < s.timeout) (hlast : m.last_command = some r)
    (hfresh : s.last ≤ r + s.timeout) (hbounded : Bounded V m)
    (hsilent : commands_for can_id t.log = commands_for can_id s.log)
    (hhands : ∀ e ∈ es, ¬ Handled can_id e) :
    ∃ m', t.motors.get can_id = some m' ∧ m'.Sound ∧ Overrun V r s.timeout s.last t.last m m' := by
  induction hr with
  | nil => exact ⟨m, hm, hs, .turning hfresh hbounded hlast (by simp)⟩
  | snoc hrun hn ih =>
    rename_i es₁ u v e
    obtain ⟨m₁, cs, hm₁, hs₁, hlog₁⟩ := run_motor (hrun.mono fun _ _ _ h => h.1) hm hs
    obtain ⟨m', hm', hstep⟩ := motor_step hn.1 hm₁
    have hs' := hstep.sound hs₁
    have hlogs := silent_logs hlog₁ hsilent (hstep.starts_not hs₁)
    obtain ⟨m₂, hm₂, -, hover⟩ := ih hlogs.1 fun d hd => hhands d (List.mem_append_left _ hd)
    obtain rfl := Option.some.inj (hm₂.symm.trans hm₁)
    refine ⟨m', hm', hs', ?_⟩
    cases hstep with
    | rest _ _ hlog hclock => rwa [hclock]
    | commanded now frame at_ result hid hcommand hlog hclock =>
      have hlen := congrArg List.length hlogs.2
      rw [hlog, commands_for_append, List.length_append] at hlen
      simp [commands_for] at hlen
    | ticked now received htick hdue hclock hlog hnow =>
      rw [(run_frame hrun).2] at htick
      rw [hnow]
      exact overrun_tick hexp hs₁ htimeout (hn.2 now received rfl hdue) hover htick
    | placed _ position_deg hlog hclock => exact absurd ⟨position_deg, .inl rfl⟩ (hhands _ (by simp))
    | cycled _ position_deg hlog hclock => exact absurd ⟨position_deg, .inr rfl⟩ (hhands _ (by simp))
    | injected _ stuck ignore_origin load_current_a hlog hclock =>
      rw [hclock]
      cases hover with
      | turning hearly hbounded' hlast' hway =>
        exact .turning hearly ⟨hbounded'.dps, hbounded'.speed, hbounded'.position⟩ hlast' hway
      | coasting hlate hidle hway => exact .coasting hlate hidle hway

/-- A motor with a CAN timeout whose last command came at `r`, and that no speed of it exceeds:
without a further command it turns no further than that speed leads it until the timeout and in
one time constant, whatever the ticks. A tick after the timeout leaves it idle. -/
theorem silent_controller_overrun (hexp : Exponential exp)
    (hstart : FakeCubeMars.start ids rate position_speed timeout booted = some s₀) (hid : can_id ∈ ids)
    (hbefore : Run (next exp) s₀ ds s) (hr : Run (next_timed exp) s es t)
    (hm : s.motors.get can_id = some m) (htimeout : 0 < s.timeout) (hlast : m.last_command = some r)
    (hfresh : s.last ≤ r + s.timeout) (hbounded : Bounded V m)
    (hsilent : commands_for can_id t.log = commands_for can_id s.log)
    (hhands : ∀ e ∈ es, ¬ Handled can_id e) :
    ∃ m', t.motors.get can_id = some m' ∧
      |m'.encoder_deg - m.encoder_deg| ≤ V * (r + s.timeout - s.last) + COAST_TIME_CONSTANT * V ∧
      (r + s.timeout < t.last → m'.mode = .idle ∧
        |m'.encoder_deg - m.encoder_deg| + COAST_TIME_CONSTANT * |m'.dps| ≤
          V * (r + s.timeout - s.last) + COAST_TIME_CONSTANT * V) := by
  obtain ⟨hmotor, -⟩ := start_motor hstart hid
  obtain ⟨m₁, cs, hm₁, hs₁, -⟩ := run_motor hbefore hmotor (sound_new _ _)
  obtain rfl := Option.some.inj (hm₁.symm.trans hm)
  obtain ⟨m', hm', -, hover⟩ := overrun_run hexp hr hm hs₁ htimeout hlast hfresh hbounded hsilent hhands
  have htau : (0 : K) < COAST_TIME_CONSTANT := by norm_num [COAST_TIME_CONSTANT]
  have hV : 0 ≤ V := (abs_nonneg _).trans hbounded.dps
  have hcoast : 0 ≤ COAST_TIME_CONSTANT * V := mul_nonneg htau.le hV
  refine ⟨m', hm', ?_⟩
  cases hover with
  | turning hearly hbounded' hlast' hway =>
    have hearlier : V * (t.last - s.last) ≤ V * (r + s.timeout - s.last) :=
      mul_le_mul_of_nonneg_left (by linarith) hV
    exact ⟨by linarith, fun h => absurd hearly (not_le.mpr h)⟩
  | coasting hlate hidle hway =>
    have hrest := mul_nonneg htau.le (abs_nonneg m'.dps)
    exact ⟨by linarith, fun _ => ⟨hidle, hway⟩⟩

end Runs

/-- Motor 1 a hundredth of a second after it was driven. -/
def turning : FakeCubeMars ℚ := after_round driven (1 / 100) none

theorem turning_run : Run (next_timed rational_exp) driven [.round (1 / 100) none] turning := by
  have hclock : ∀ now received, Event.round (1 / 100 : ℚ) none = .round now received →
      driven.next_tick ≤ now → driven.last < now := by
    intro now received h hdue
    obtain ⟨rfl, rfl⟩ := Event.round.inj h
    decide +kernel
  exact .single ⟨after_round_next (by decide +kernel) (by decide +kernel), hclock⟩

/-- The motor that is driven. -/
def driven_motor : EmulatedMotor ℚ :=
  { (EmulatedMotor.new 1 720 : EmulatedMotor ℚ) with
    mode := .speed
    target_erpm := 1000
    last_command := some 0 }

theorem driven_motor_bounded : Bounded (300 / 7) driven_motor where
  dps := by decide +kernel
  speed _ := by decide +kernel
  position h := absurd h (by decide)

theorem driven_motor_get : driven.motors.get 1 = some driven_motor := by decide +kernel

/-- ... and after its CAN timeout of one second. -/
def overdue : FakeCubeMars ℚ := after_round turning (3 / 2) none

theorem overdue_run :
    Run (next_timed rational_exp) driven [.round (1 / 100) none, .round (3 / 2) none] overdue := by
  have hclock : ∀ now received, Event.round (3 / 2 : ℚ) none = .round now received →
      turning.next_tick ≤ now → turning.last < now := by
    intro now received h hdue
    obtain ⟨rfl, rfl⟩ := Event.round.inj h
    decide +kernel
  exact turning_run.snoc ⟨after_round_next (by decide +kernel) (by decide +kernel), hclock⟩

theorem overdue_hands :
    ∀ e ∈ [Event.round (1 / 100 : ℚ) none, .round (3 / 2) none], ¬ Handled 1 e := by
  intro e he
  rcases List.mem_pair.mp he with rfl | rfl <;> rintro ⟨position_deg, h | h⟩ <;> cases h

/-- The motor is released by the second tick. -/
theorem silent_controller_overrun_released :
    ∃ m, overdue.motors.get 1 = some m ∧ m.mode = .idle ∧
      |m.encoder_deg - driven_motor.encoder_deg| + COAST_TIME_CONSTANT * |m.dps| ≤
        300 / 7 * (0 + driven.timeout - driven.last) + COAST_TIME_CONSTANT * (300 / 7) := by
  have hid : 1 ∈ [1] := by decide
  have hsilent : commands_for 1 overdue.log = commands_for 1 driven.log := by decide +kernel
  have hlate : 0 + driven.timeout < overdue.last := by decide +kernel
  obtain ⟨m, hm, -, hreleased⟩ := silent_controller_overrun rational_exponential one_motor_starts hid driven_run
    overdue_run driven_motor_get (by decide +kernel) rfl (by decide +kernel) driven_motor_bounded hsilent
    overdue_hands
  exact ⟨m, hm, hreleased hlate⟩

section Runs
variable {K : Type} [Field K] [LinearOrder K] [IsStrictOrderedRing K] [FloorRing K] {exp : K → K}
  {ids : List Nat} {rate position_speed timeout booted : K} {s₀ s t : FakeCubeMars K}
  {ds es : List (Event K)} {can_id : Nat} {m : EmulatedMotor K}

end Runs

end IotRobot.Emulator
