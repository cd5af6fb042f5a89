import IotRobot.Emulator.FakeCubeMars

/-!
# Motors that nothing drives

A motor that coasts, brakes or holds speed zero stays so under every command that drives
nothing, and it travels no further than its speed and its time constant allow, however the
ticks fall. A faulted motor is released, and stands until the fault is cleared.
-/

namespace IotRobot.Emulator

open Lib Can

set_option autoImplicit false

section Commands
variable {K : Type} [Field K] [LinearOrder K]

/-- What no command changes, and what only the origin's changes. -/
structure SameJoint (mode : Nat) (m m' : FakeMotor K) : Prop where
  encoder_deg : m'.encoder_deg = m.encoder_deg
  error : m'.error = m.error
  pole_pairs : m'.pole_pairs = m.pole_pairs
  gear_ratio : m'.gear_ratio = m.gear_ratio
  ignore_origin : m'.ignore_origin = m.ignore_origin
  origin_deg : mode ≠ MODE_SET_ORIGIN → m'.origin_deg = m.origin_deg

variable [IsStrictOrderedRing K]

theorem zero_literal : (0.0 : K) = 0 := by norm_num

/-- What a command that is obeyed makes of the mode. -/
inductive Obeyed (m' : FakeMotor K) (mode : Nat) (value : K) : Prop
  | duty (h : mode = MODE_DUTY) (hmode : m'.mode = .speed) (hspeed : m'.target_erpm = value * FULL_DUTY_ERPM)
  | current (h : mode = MODE_CURRENT) (hmode : m'.mode = if value ≠ 0 then .current else .idle)
  | brake (h : mode = MODE_BRAKE) (hmode : m'.mode = .brake)
  | speed (h : mode = MODE_SPEED) (hmode : m'.mode = .speed) (hspeed : m'.target_erpm = value)
  | position (h : mode = MODE_POSITION ∨ mode = MODE_POSITION_SPEED) (hmode : m'.mode = .position)

/-- A command is obeyed by a motor without a fault, or it leaves the mode as it was. -/
theorem command_cases (mode : Nat) (data : List UInt8) (now : K) (m : FakeMotor K) :
    SameJoint mode m (m.command mode data now).2 ∧
    (((m.command mode data now).2.mode = m.mode ∧
      (m.command mode data now).2.target_erpm = m.target_erpm) ∨
    m.error = 0 ∧ ∃ value, decode_command mode data = some value ∧
      Obeyed (m.command mode data now).2 mode value) := by
  unfold FakeMotor.command
  cases hvalue : (decode_command mode data : Option K) with
  | none => exact ⟨⟨rfl, rfl, rfl, rfl, rfl, fun _ => rfl⟩, .inl ⟨rfl, rfl⟩⟩
  | some value =>
    dsimp only
    by_cases horigin : mode = MODE_SET_ORIGIN
    · rw [if_pos horigin]
      unfold FakeMotor.set_origin
      split
      · exact ⟨⟨rfl, rfl, rfl, rfl, rfl, fun h => absurd horigin h⟩, .inl ⟨rfl, rfl⟩⟩
      split
      · exact ⟨⟨rfl, rfl, rfl, rfl, rfl, fun h => absurd horigin h⟩, .inl ⟨rfl, rfl⟩⟩
      split <;> exact ⟨⟨rfl, rfl, rfl, rfl, rfl, fun h => absurd horigin h⟩, .inl ⟨rfl, rfl⟩⟩
    rw [if_neg horigin]
    by_cases hfault : m.error ≠ 0
    · rw [if_pos hfault]
      exact ⟨⟨rfl, rfl, rfl, rfl, rfl, fun _ => rfl⟩, .inl ⟨rfl, rfl⟩⟩
    rw [if_neg hfault]
    have hfault := not_not.mp hfault
    by_cases hduty : mode = MODE_DUTY
    · rw [if_pos hduty]
      exact ⟨⟨rfl, rfl, rfl, rfl, rfl, fun _ => rfl⟩, .inr ⟨hfault, value, rfl, .duty hduty rfl rfl⟩⟩
    rw [if_neg hduty]
    by_cases hcurrent : mode = MODE_CURRENT
    · rw [if_pos hcurrent, zero_literal]
      exact ⟨⟨rfl, rfl, rfl, rfl, rfl, fun _ => rfl⟩, .inr ⟨hfault, value, rfl, .current hcurrent rfl⟩⟩
    rw [if_neg hcurrent]
    by_cases hbrake : mode = MODE_BRAKE
    · rw [if_pos hbrake]
      exact ⟨⟨rfl, rfl, rfl, rfl, rfl, fun _ => rfl⟩, .inr ⟨hfault, value, rfl, .brake hbrake rfl⟩⟩
    rw [if_neg hbrake]
    by_cases hspeed : mode = MODE_SPEED
    · rw [if_pos hspeed]
      exact ⟨⟨rfl, rfl, rfl, rfl, rfl, fun _ => rfl⟩, .inr ⟨hfault, value, rfl, .speed hspeed rfl rfl⟩⟩
    rw [if_neg hspeed]
    by_cases hposition : mode = MODE_POSITION
    · rw [if_pos hposition]
      exact ⟨⟨rfl, rfl, rfl, rfl, rfl, fun _ => rfl⟩, .inr ⟨hfault, value, rfl, .position (.inl hposition) rfl⟩⟩
    rw [if_neg hposition]
    by_cases hboth : mode = MODE_POSITION_SPEED
    · rw [if_pos hboth]
      have hpos {m' : FakeMotor K} (hmode : m'.mode = .position) :
          Obeyed m' mode value := .position (.inr hboth) hmode
      split
      · exact ⟨⟨rfl, rfl, rfl, rfl, rfl, fun _ => rfl⟩, .inr ⟨hfault, value, rfl, hpos rfl⟩⟩
      split <;> exact ⟨⟨rfl, rfl, rfl, rfl, rfl, fun _ => rfl⟩, .inr ⟨hfault, value, rfl, hpos rfl⟩⟩
    · rw [if_neg hboth]
      exact ⟨⟨rfl, rfl, rfl, rfl, rfl, fun _ => rfl⟩, .inl ⟨rfl, rfl⟩⟩

/-- A faulted motor keeps its mode, whatever it is told. -/
theorem command_faulted {m : FakeMotor K} (h : m.error ≠ 0) (mode : Nat) (data : List UInt8) (now : K) :
    (m.command mode data now).2.mode = m.mode := by
  rcases (command_cases mode data now m).2 with ⟨hmode, -⟩ | ⟨hfault, -⟩
  · exact hmode
  · exact absurd hfault h

omit [LinearOrder K] in
/-- Nothing drives the motor. -/
structure Undriven (m : FakeMotor K) : Prop where
  position : m.mode ≠ .position
  speed : m.mode = .speed → m.target_erpm = 0

omit [LinearOrder K] in
theorem Undriven.of_idle {m : FakeMotor K} (h : m.mode = .idle) : Undriven m :=
  ⟨by simp [h], by simp [h]⟩

/-- A command that drives no motor, whatever it makes of its payload. -/
def Passive (K : Type) [Field K] (mode : Nat) (data : List UInt8) : Prop :=
  ∀ value : K, decode_command mode data = some value →
    mode = MODE_SET_ORIGIN ∨ mode = MODE_CURRENT ∨ mode = MODE_BRAKE ∨
      (mode = MODE_SPEED ∨ mode = MODE_DUTY) ∧ value = 0

/-- A command that stops a motor: speed zero or no current. -/
def Stopping (K : Type) [Field K] (mode : Nat) (data : List UInt8) : Prop :=
  (mode = MODE_SPEED ∨ mode = MODE_CURRENT) ∧ decode_command mode data = some (0 : K)

omit [IsStrictOrderedRing K] in
/-- A passive command that is obeyed drives nothing. -/
theorem Obeyed.undriven {m' : FakeMotor K} {mode : Nat} {data : List UInt8} {value : K}
    (h : Obeyed m' mode value) (hp : Passive K mode data) (hvalue : decode_command mode data = some value) :
    Undriven m' := by
  have hpassive := hp value hvalue
  cases h with
  | duty h hmode hspeed =>
    subst h
    have hzero : value = 0 := by simpa [ MODE_DUTY, MODE_SET_ORIGIN, MODE_CURRENT, MODE_BRAKE] using hpassive
    exact ⟨by simp [hmode], fun _ => by simp [hspeed, hzero]⟩
  | current h hmode => constructor <;> rw [hmode] <;> split_ifs <;> simp
  | brake h hmode => exact ⟨by simp [hmode], by simp [hmode]⟩
  | speed h hmode hspeed =>
    subst h
    have hzero : value = 0 := by simpa [ MODE_SPEED, MODE_SET_ORIGIN, MODE_CURRENT, MODE_BRAKE] using hpassive
    exact ⟨by simp [hmode], fun _ => hspeed.trans hzero⟩
  | position h hmode =>
    rcases h with rfl | rfl <;>
      simp [ MODE_POSITION, MODE_POSITION_SPEED, MODE_SPEED, MODE_DUTY, MODE_SET_ORIGIN, MODE_CURRENT,
        MODE_BRAKE] at hpassive

theorem command_passive {m : FakeMotor K} {mode : Nat} {data : List UInt8} (hp : Passive K mode data)
    (hu : Undriven m) (now : K) : Undriven (m.command mode data now).2 := by
  rcases (command_cases mode data now m).2 with ⟨hmode, hspeed⟩ | ⟨-, value, hvalue, hobeyed⟩
  · exact ⟨by rw [hmode]; exact hu.position, by rw [hmode, hspeed]; exact hu.speed⟩
  · exact hobeyed.undriven hp hvalue

/-- A motor without a fault obeys a stop. -/
theorem command_stops {m : FakeMotor K} {mode : Nat} {data : List UInt8} (hs : Stopping K mode data)
    (hfault : m.error = 0) (now : K) :
    Undriven (m.command mode data now).2 ∧
      (mode = MODE_CURRENT → (m.command mode data now).2.mode = .idle) := by
  unfold FakeMotor.command
  rw [hs.2]
  dsimp only
  rcases hs.1 with rfl | rfl
  · rw [if_neg (by decide), if_neg (not_not.mpr hfault), if_neg (by decide), if_neg (by decide),
      if_neg (by decide), if_pos rfl]
    exact ⟨⟨nofun, fun _ => rfl⟩, fun h => absurd h (by decide)⟩
  · rw [if_neg (by decide), if_neg (not_not.mpr hfault), if_neg (by decide), if_pos rfl]
    have hidle : (if (0 : K) ≠ 0.0 then MotorMode.current else .idle) = .idle := by
      rw [zero_literal]
      exact if_neg (not_not.mpr rfl)
    exact ⟨.of_idle hidle, fun _ => hidle⟩

end Commands

section Calm
variable {K : Type}

/-- What every motor of a run is: it has a gearbox, and a fault released it. -/
structure EmulatedMotor.Sound (m : EmulatedMotor K) : Prop where
  geared : m.Geared
  released : m.error ≠ 0 → m.mode = .idle

theorem sound_new [Field K] (can_id : Nat) (position_speed : K) : (EmulatedMotor.new can_id position_speed).Sound :=
  ⟨by show POLE_PAIRS * GEAR_RATIO ≠ 0; decide, fun h => absurd rfl h⟩

/-- What the due actions and an expired timeout leave of a motor. -/
structure Calmed (m m' : EmulatedMotor K) : Prop where
  can_id : m'.can_id = m.can_id
  encoder_deg : m'.encoder_deg = m.encoder_deg
  origin_deg : m'.origin_deg = m.origin_deg
  speed_erpm : m'.speed_erpm = m.speed_erpm
  target_erpm : m'.target_erpm = m.target_erpm
  target_deg : m'.target_deg = m.target_deg
  move_dps : m'.move_dps = m.move_dps
  last_command : m'.last_command = m.last_command
  stuck : m'.stuck = m.stuck
  pole_pairs : m'.pole_pairs = m.pole_pairs
  gear_ratio : m'.gear_ratio = m.gear_ratio
  mode : m'.mode = m.mode ∨ m'.mode = .idle
  released : (m.error ≠ 0 → m.mode = .idle) → m'.error ≠ 0 → m'.mode = .idle

theorem Calmed.refl (m : EmulatedMotor K) : Calmed m m :=
  ⟨rfl, rfl, rfl, rfl, rfl, rfl, rfl, rfl, rfl, rfl, rfl, .inl rfl, id⟩

theorem Calmed.trans {m m' m'' : EmulatedMotor K} (h : Calmed m m') (g : Calmed m' m'') : Calmed m m'' where
  can_id := g.can_id.trans h.can_id
  encoder_deg := g.encoder_deg.trans h.encoder_deg
  origin_deg := g.origin_deg.trans h.origin_deg
  speed_erpm := g.speed_erpm.trans h.speed_erpm
  target_erpm := g.target_erpm.trans h.target_erpm
  target_deg := g.target_deg.trans h.target_deg
  move_dps := g.move_dps.trans h.move_dps
  last_command := g.last_command.trans h.last_command
  stuck := g.stuck.trans h.stuck
  pole_pairs := g.pole_pairs.trans h.pole_pairs
  gear_ratio := g.gear_ratio.trans h.gear_ratio
  mode := by
    rcases g.mode with hg | hg
    · rw [hg]
      exact h.mode
    · exact .inr hg
  released := fun hm => g.released (h.released hm)

theorem Calmed.sound {m m' : EmulatedMotor K} (h : Calmed m m') (hs : m.Sound) : m'.Sound := by
  refine ⟨?_, h.released hs.released⟩
  unfold EmulatedMotor.Geared
  rw [h.pole_pairs, h.gear_ratio]
  exact hs.geared

variable [Field K]

theorem Calmed.undriven {m m' : EmulatedMotor K} (h : Calmed m m') (hu : Undriven m.toFakeMotor) :
    Undriven m'.toFakeMotor := by
  rcases h.mode with hmode | hmode
  · exact ⟨by rw [hmode]; exact hu.position, by rw [hmode, h.target_erpm]; exact hu.speed⟩
  · exact .of_idle hmode

theorem release_calms (m : EmulatedMotor K) : Calmed m m.release :=
  ⟨rfl, rfl, rfl, rfl, rfl, rfl, rfl, rfl, rfl, rfl, rfl, .inr rfl, fun _ _ => rfl⟩

theorem action_calms (m : EmulatedMotor K) (action : Action) : Calmed m (action.apply m) := by
  cases action with
  | silence can_id silent => exact ⟨rfl, rfl, rfl, rfl, rfl, rfl, rfl, rfl, rfl, rfl, rfl, .inl rfl, id⟩
  | fault can_id code =>
    by_cases hcode : code = 0
    · subst hcode
      exact ⟨rfl, rfl, rfl, rfl, rfl, rfl, rfl, rfl, rfl, rfl, rfl, .inl rfl, fun _ h => absurd rfl h⟩
    · simp only [Action.apply, ne_eq, hcode, not_false_eq_true, if_true]
      exact ⟨rfl, rfl, rfl, rfl, rfl, rfl, rfl, rfl, rfl, rfl, rfl, .inr rfl, fun _ _ => rfl⟩

theorem actions_calm (m : EmulatedMotor K) (actions : List Action) :
    Calmed m (actions.foldl Action.apply m) := by
  induction actions generalizing m with
  | nil => exact .refl m
  | cons action actions ih => exact (action_calms m action).trans (ih _)

/-- A tick of a motor is a step of what the actions and the timeout leave of it. -/
theorem tick_calms [LinearOrder K] {exp : K → K} {timeout now dt : K} {m m' : EmulatedMotor K} {actions : List Action}
    (h : tick_motor exp timeout now dt (actions.foldl Action.apply m) = .ok m') :
    ∃ m₀, Calmed m m₀ ∧ m₀.step exp dt = .ok m' ∧
      (m₀.mode = .idle ∨ timed_out timeout now m₀ = false ∧ m₀ = actions.foldl Action.apply m) := by
  have hcalm := actions_calm m actions
  unfold tick_motor at h
  split_ifs at h with hout
  · exact ⟨_, hcalm.trans (release_calms _), h, .inl rfl⟩
  · exact ⟨_, hcalm, h, .inr ⟨Bool.eq_false_of_not_eq_true hout, rfl⟩⟩

theorem Calmed.dps {m m' : EmulatedMotor K} (h : Calmed m m') : m'.dps = m.dps := by
  rw [EmulatedMotor.dps, EmulatedMotor.dps_of, h.pole_pairs, h.gear_ratio, h.speed_erpm]
  rfl

end Calm

section Motor
variable {K : Type} [Field K] [LinearOrder K] [IsStrictOrderedRing K] {exp : K → K}
  {m m' : EmulatedMotor K} {dt : K}

theorem step_sound (hs : m.Sound) (h : m.step exp dt = .ok m') : m'.Sound := by
  obtain ⟨encoder_deg, speed, hstep⟩ := EmulatedMotor.step_moves hs.geared h
  rw [hstep.moved]
  exact ⟨hs.geared, hs.released⟩

/-- What an undriven motor covers in a step, and what its speed can cover after it, is no more
than its speed could cover before. -/
theorem step_undriven (hexp : Exponential exp) (hg : m.Geared) (hu : Undriven m.toFakeMotor)
    (h : m.step exp dt = .ok m') :
    Undriven m'.toFakeMotor ∧ |m'.encoder_deg - m.encoder_deg| + COAST_TIME_CONSTANT * |m'.dps| ≤
      COAST_TIME_CONSTANT * |m.dps| := by
  have htau : (0 : K) < COAST_TIME_CONSTANT := by norm_num [COAST_TIME_CONSTANT]
  have hstands : EmulatedMotor.Stepped m dt m.encoder_deg 0 m' →
      |m'.encoder_deg - m.encoder_deg| + COAST_TIME_CONSTANT * |m'.dps| ≤
        COAST_TIME_CONSTANT * |m.dps| := by
    intro hstep
    have hnonneg := mul_nonneg htau.le (abs_nonneg m.dps)
    rw [hstep.dps, hstep.moved]
    simpa using hnonneg
  constructor
  · obtain ⟨encoder_deg, speed, hstep⟩ := EmulatedMotor.step_moves hg h
    rw [hstep.moved]
    exact ⟨hu.position, hu.speed⟩
  by_cases hheld : m.error ≠ 0 ∨ m.stuck ∨ m.mode = .brake
  · exact hstands (EmulatedMotor.step_held hg hheld h)
  by_cases hspeed : m.mode = .speed
  · have hstep := EmulatedMotor.step_speed hg hheld hspeed h
    rw [hu.speed hspeed, EmulatedMotor.dps_of_zero] at hstep
    exact hstands hstep
  rcases EmulatedMotor.step_coast hg hheld hspeed hu.position h with ⟨hdt, hstep⟩ | ⟨-, hstep⟩
  · have hcoast := hexp.coast htau hdt.le (v := m.dps)
    rw [hstep.dps, hstep.moved]
    simpa using hcoast
  · exact hstands hstep

/-- A motor stays as sound as it was. -/
theorem MotorStep.sound {can_id : Nat} {s s' : FakeCubeMars K} {e : Event K}
    (h : MotorStep exp can_id s s' e m m') (hs : m.Sound) : m'.Sound := by
  cases h with
  | rest _ _ hlog hlast => exact hs
  | commanded now frame at_ result hid hcommand hlog hlast =>
    obtain rfl := EmulatedMotor.command_base hcommand
    have hsame := (command_cases (frame.id >>> 8) frame.data at_ m.toFakeMotor).1
    constructor
    · unfold EmulatedMotor.Geared
      rw [hsame.pole_pairs, hsame.gear_ratio]
      exact hs.geared
    · intro hfault
      have hfault : m.error ≠ 0 := by rw [← hsame.error]; exact hfault
      exact (command_faulted hfault _ _ _).trans (hs.released hfault)
  | ticked now received htick hdue hclock hlog hlast =>
    obtain ⟨m₀, hcalm, hstep, -⟩ := tick_calms htick
    exact step_sound (hcalm.sound hs) hstep
  | placed _ position_deg hlog hlast => exact ⟨hs.geared, hs.released⟩
  | cycled _ position_deg hlog hlast => exact ⟨hs.geared, fun h => absurd rfl h⟩
  | injected _ stuck ignore_origin load_current_a hlog hlast => exact ⟨hs.geared, hs.released⟩

/-- The motor is moved by hand, or its power goes off and on. -/
def Handled (can_id : Nat) (e : Event K) : Prop :=
  ∃ position_deg, e = .set_position can_id position_deg ∨ e = .power_cycle can_id position_deg

/-- An event is a command for the motor, or it does not start it. -/
theorem MotorStep.starts_not {can_id : Nat} {s s' : FakeCubeMars K} {e : Event K}
    (h : MotorStep exp can_id s s' e m m') (hs : m.Sound) :
    (commands_for can_id s'.log = commands_for can_id s.log ∧ (m.mode = .idle → m'.mode = .idle) ∧
      (Undriven m.toFakeMotor → Undriven m'.toFakeMotor)) ∨
    ∃ c : Command K, commands_for can_id s'.log = commands_for can_id s.log ++ [c] ∧
      m' = { m with toFakeMotor := (m.toFakeMotor.command c.mode c.data c.time).2 } := by
  cases h with
  | rest _ _ hlog hlast => exact .inl ⟨hlog, id, id⟩
  | commanded now frame at_ result hid hcommand hlog hlast =>
    right
    refine ⟨⟨at_, can_id, frame.id >>> 8, frame.data⟩, ?_, EmulatedMotor.command_base hcommand⟩
    simp [hlog, commands_for]
  | ticked now received htick hdue hclock hlog hlast =>
    left
    obtain ⟨m₀, hcalm, hstep, -⟩ := tick_calms htick
    obtain ⟨encoder_deg, speed, hmoved⟩ := EmulatedMotor.step_moves (hcalm.sound hs).geared hstep
    have hmode : m'.mode = m₀.mode := by rw [hmoved.moved]
    have htarget : m'.target_erpm = m₀.target_erpm := by rw [hmoved.moved]
    refine ⟨by rw [hlog], fun hidle => ?_, fun hu => ?_⟩
    · rcases hcalm.mode with hcalm | hcalm
      · rw [hmode, hcalm, hidle]
      · rw [hmode, hcalm]
    · have hu := hcalm.undriven hu
      exact ⟨by rw [hmode]; exact hu.position, by rw [hmode, htarget]; exact hu.speed⟩
  | placed _ position_deg hlog hlast =>
    exact .inl ⟨by rw [hlog], id, fun hu => ⟨hu.position, hu.speed⟩⟩
  | cycled _ position_deg hlog hlast => exact .inl ⟨by rw [hlog], fun _ => rfl, fun _ => .of_idle rfl⟩
  | injected _ stuck ignore_origin load_current_a hlog hlast =>
    exact .inl ⟨by rw [hlog], id, fun hu => ⟨hu.position, hu.speed⟩⟩

/-- What the motor has heard before the last event of a run, and in it, it has heard in the run. -/
theorem MotorStep.heard_before {can_id : Nat} {s u v : FakeCubeMars K} {e : Event K}
    (h : MotorStep exp can_id u v e m m') (hs : m.Sound) {before all : List (Command K)}
    (hbefore : commands_for can_id u.log = commands_for can_id s.log ++ before)
    (hall : commands_for can_id v.log = commands_for can_id s.log ++ all) :
    (∀ c ∈ before, c ∈ all) ∧
      ∀ c, commands_for can_id v.log = commands_for can_id u.log ++ [c] → c ∈ all := by
  constructor
  · intro c hc
    rcases h.starts_not hs with ⟨hsame, -, -⟩ | ⟨d, hsnoc, -⟩
    · rw [hsame, hbefore] at hall
      rwa [← List.append_cancel_left hall]
    · rw [hsnoc, hbefore, List.append_assoc] at hall
      rw [← List.append_cancel_left hall]
      exact List.mem_append_left _ hc
  · intro c hc
    rw [hc, hbefore, List.append_assoc] at hall
    rw [← List.append_cancel_left hall]
    simp

/-- While only passive commands come, an undriven motor travels no further than it can coast. -/
theorem MotorStep.coasts {can_id : Nat} {s s' : FakeCubeMars K} {e : Event K}
    (h : MotorStep exp can_id s s' e m m') (hexp : Exponential exp) (hs : m.Sound)
    (hu : Undriven m.toFakeMotor) (hhands : ¬ Handled can_id e) :
    |m'.encoder_deg - m.encoder_deg| + COAST_TIME_CONSTANT * |m'.dps| ≤
      COAST_TIME_CONSTANT * |m.dps| := by
  cases h with
  | rest _ _ hlog hlast => simp
  | commanded now frame at_ result hid hcommand hlog hlast =>
    obtain rfl := EmulatedMotor.command_base hcommand
    have hsame := (command_cases (frame.id >>> 8) frame.data at_ m.toFakeMotor).1
    simp only [EmulatedMotor.dps, EmulatedMotor.dps_of, hsame.encoder_deg, hsame.pole_pairs,
      hsame.gear_ratio, sub_self, abs_zero, zero_add, le_refl]
  | ticked now received htick hdue hclock hlog hlast =>
    obtain ⟨m₀, hcalm, hstep, -⟩ := tick_calms htick
    have hcovers := (step_undriven hexp (hcalm.sound hs).geared (hcalm.undriven hu) hstep).2
    rwa [hcalm.encoder_deg, hcalm.dps] at hcovers
  | placed _ position_deg hlog hlast => exact absurd ⟨position_deg, .inl rfl⟩ hhands
  | cycled _ position_deg hlog hlast => exact absurd ⟨position_deg, .inr rfl⟩ hhands
  | injected _ stuck ignore_origin load_current_a hlog hlast =>
    change |m.encoder_deg - m.encoder_deg| + COAST_TIME_CONSTANT * |m.dps| ≤ COAST_TIME_CONSTANT * |m.dps|
    simp

end Motor

section Runs
variable {K : Type} [Field K] [LinearOrder K] [IsStrictOrderedRing K] [FloorRing K] {exp : K → K}
  {m : EmulatedMotor K} {can_id : Nat} {s t : FakeCubeMars K} {es : List (Event K)}

omit [IsStrictOrderedRing K] [FloorRing K] in
/-- An emulator starts with new motors and an empty log. -/
theorem start_motor {ids : List Nat} {rate position_speed timeout now : K}
    (h : FakeCubeMars.start ids rate position_speed timeout now = some s) (hid : can_id ∈ ids) :
    s.motors.get can_id = some (.new can_id position_speed) ∧ s.log = [] := by
  unfold FakeCubeMars.start at h
  split_ifs at h
  cases h
  apply And.intro _ rfl
  dsimp only
  have hget : ∀ (ids : List Nat) (motors : Dict Nat (EmulatedMotor K)),
      can_id ∈ ids ∨ motors.get can_id = some (.new can_id position_speed) →
      (ids.foldl (fun motors can_id => motors.set can_id (.new can_id position_speed)) motors).get can_id =
        some (.new can_id position_speed) := by
    intro ids
    induction ids with
    | nil => exact fun motors h => h.resolve_left (by simp)
    | cons k ids ih =>
      intro motors h
      rw [List.foldl_cons]
      apply ih
      by_cases hk : can_id = k
      · right
        rw [Dict.get_set, if_pos hk, hk]
      · rcases h with hmem | hset
        · exact .inl ((List.mem_cons.mp hmem).resolve_left hk)
        · right
          rw [Dict.get_set, if_neg hk, hset]
  exact hget ids [] (.inl hid)

omit [IsStrictOrderedRing K] in
/-- A logged command names its motor in one byte. -/
theorem run_log_ids (hr : Run (next exp) s es t) (hs : ∀ c ∈ s.log, c.can_id < 256) :
    ∀ c ∈ t.log, c.can_id < 256 := by
  apply hr.invariant (fun s => ∀ c ∈ s.log, c.can_id < 256) hs
  intro s s' e hs hn
  cases hn with
  | round now received hclock hround =>
    rcases round_cases hround with ⟨motors, motors', -, -, -, -, hlog, -⟩ | rfl | ⟨frame, at_, -, hreceive⟩
    · rw [hlog]
      exact hs
    · exact hs
    rcases receive_cases hreceive with rfl | ⟨m, m', result, -, -, rfl⟩
    · exact hs
    · intro c hc
      rcases List.mem_append.mp hc with hc | hc
      · exact hs c hc
      · rw [List.mem_singleton.mp hc]
        exact Nat.lt_succ_of_le Nat.and_le_right
  | schedule due action => exact hs
  | set_position k position_deg =>
    rw [(with_motor_log k _).1]
    exact hs
  | power_cycle k position_deg =>
    rw [(with_motor_log k _).1]
    exact hs
  | inject k stuck ignore_origin load_current_a =>
    rw [(with_motor_log k _).1]
    exact hs

/-- A motor stays on the bus, and its part of the log grows. -/
theorem run_motor (hr : Run (next exp) s es t) (hm : s.motors.get can_id = some m) (hs : m.Sound) :
    ∃ m' cs, t.motors.get can_id = some m' ∧ m'.Sound ∧
      commands_for can_id t.log = commands_for can_id s.log ++ cs := by
  induction hr with
  | nil => exact ⟨m, [], hm, hs, by simp⟩
  | snoc _ hn ih =>
    obtain ⟨m₁, cs, hm₁, hs₁, hlog₁⟩ := ih
    obtain ⟨m', hm', hstep⟩ := motor_step hn hm₁
    rcases hstep.starts_not hs₁ with ⟨hlog, -, -⟩ | ⟨c, hlog, -⟩
    · exact ⟨m', cs, hm', hstep.sound hs₁, by rw [hlog, hlog₁]⟩
    · exact ⟨m', cs ++ [c], hm', hstep.sound hs₁, by rw [hlog, hlog₁, List.append_assoc]⟩

/-- Passive commands, one of them a stop: nothing drives the motor any more. After a release
as the last command it is idle. -/
theorem run_stops (hr : Run (next exp) s es t) (hm : s.motors.get can_id = some m) (hs : m.Sound)
    {cs : List (Command K)} (hlog : commands_for can_id t.log = commands_for can_id s.log ++ cs)
    (hpassive : ∀ c ∈ cs, Passive K c.mode c.data) :
    ∃ m', t.motors.get can_id = some m' ∧ m'.Sound ∧
      (Undriven m.toFakeMotor ∨ (∃ c ∈ cs, Stopping K c.mode c.data) → Undriven m'.toFakeMotor) ∧
      ∀ c, cs.getLast? = some c → c.mode = MODE_CURRENT → Stopping K c.mode c.data →
        m'.mode = .idle := by
  induction hr generalizing cs with
  | nil =>
    obtain rfl : cs = [] := by simpa using hlog
    exact ⟨m, hm, hs, by simp, by simp⟩
  | snoc hrun hn ih =>
    obtain ⟨m₁, cs₁, hm₁, hs₁, hlog₁⟩ := run_motor hrun hm hs
    obtain ⟨m', hm', hstep⟩ := motor_step hn hm₁
    have hs' := hstep.sound hs₁
    rcases hstep.starts_not hs₁ with ⟨hsame, hidle, hund⟩ | ⟨c, hsnoc, hmoved⟩
    · obtain rfl : cs₁ = cs := by
        rw [hsame, hlog₁] at hlog
        exact List.append_cancel_left hlog
      obtain ⟨m₂, hm₂, -, hstopped, hlast⟩ := ih hlog₁ hpassive
      obtain rfl := Option.some.inj (hm₂.symm.trans hm₁)
      exact ⟨m', hm', hs', fun h => hund (hstopped h), fun c hc hmode hstop => hidle (hlast c hc hmode hstop)⟩
    · obtain rfl : cs₁ ++ [c] = cs := by
        rw [hsnoc, hlog₁, List.append_assoc] at hlog
        exact List.append_cancel_left hlog
      obtain ⟨m₂, hm₂, -, hstopped, -⟩ := ih hlog₁ fun d hd => hpassive d (List.mem_append_left _ hd)
      obtain rfl := Option.some.inj (hm₂.symm.trans hm₁)
      have hstops : Stopping K c.mode c.data →
          Undriven m'.toFakeMotor ∧ (c.mode = MODE_CURRENT → m'.mode = .idle) := by
        intro hstop
        subst hmoved
        by_cases hfault : m₂.error = 0
        · exact command_stops hstop hfault c.time
        · have hidle := (command_faulted hfault c.mode c.data c.time).trans (hs₁.released hfault)
          exact ⟨.of_idle hidle, fun _ => hidle⟩
      refine ⟨m', hm', hs', fun h => ?_, fun d hd hmode hstop => ?_⟩
      · by_cases hstop : Stopping K c.mode c.data
        · exact (hstops hstop).1
        · have hbefore : Undriven m.toFakeMotor ∨ ∃ d ∈ cs₁, Stopping K d.mode d.data := by
            rcases h with hu | ⟨d, hd, hdstop⟩
            · exact .inl hu
            rcases List.mem_append.mp hd with hd | hd
            · exact .inr ⟨d, hd, hdstop⟩
            · rw [List.mem_singleton.mp hd] at hdstop
              exact absurd hdstop hstop
          subst hmoved
          exact command_passive (hpassive c (by simp)) (hstopped hbefore) c.time
      · obtain rfl : c = d := by simpa using hd
        exact (hstops hstop).2 hmode

/-- From a state in which nothing drives the motor, it travels no further than it can coast. -/
theorem run_coasts (hexp : Exponential exp) (hr : Run (next exp) s es t)
    (hm : s.motors.get can_id = some m) (hs : m.Sound) (hu : Undriven m.toFakeMotor)
    (hhands : ∀ e ∈ es, ¬ Handled can_id e) {cs : List (Command K)}
    (hlog : commands_for can_id t.log = commands_for can_id s.log ++ cs)
    (hpassive : ∀ c ∈ cs, Passive K c.mode c.data) :
    ∃ m', t.motors.get can_id = some m' ∧ Undriven m'.toFakeMotor ∧
      |m'.encoder_deg - m.encoder_deg| + COAST_TIME_CONSTANT * |m'.dps| ≤
        COAST_TIME_CONSTANT * |m.dps| := by
  induction hr generalizing cs with
  | nil => exact ⟨m, hm, hu, by simp⟩
  | snoc hrun hn ih =>
    rename_i es₁ u v e
    obtain ⟨m', hm', -, hund, -⟩ := run_stops (hrun.snoc hn) hm hs hlog hpassive
    obtain ⟨m₁, cs₁, hm₁, hs₁, hlog₁⟩ := run_motor hrun hm hs
    obtain ⟨m'', hm'', hstep⟩ := motor_step hn hm₁
    obtain rfl := Option.some.inj (hm'.symm.trans hm'')
    have hpassive₁ : ∀ c ∈ cs₁, Passive K c.mode c.data := fun c hc =>
      hpassive c ((hstep.heard_before hs₁ hlog₁ hlog).1 c hc)
    obtain ⟨m₂, hm₂, hu₂, hcovered⟩ := ih (fun d hd => hhands d (List.mem_append_left _ hd)) hlog₁ hpassive₁
    obtain rfl := Option.some.inj (hm₂.symm.trans hm₁)
    have hmore := hstep.coasts hexp hs₁ hu₂ (hhands e (by simp))
    refine ⟨m', hm', hund (.inl hu), ?_⟩
    have htriangle := abs_sub_le m'.encoder_deg m₂.encoder_deg m.encoder_deg
    linarith

end Runs

/-- It agrees with the exponential function at 0. -/
def rational_exp (x : ℚ) : ℚ := if x < 0 then 1 / (1 - x) else 1 + x

theorem rational_exponential : Exponential rational_exp where
  add_one_le x := by
    unfold rational_exp
    split_ifs with h
    · rw [le_div_iff₀ (by linarith)]
      nlinarith
    · linarith
  neg_mul x := by
    unfold rational_exp
    rcases lt_trichotomy x 0 with h | rfl | h
    · rw [if_neg (by linarith), if_pos h, ← sub_eq_add_neg, mul_one_div, div_self (by linarith)]
    · norm_num
    · rw [if_pos (by linarith), if_neg (by linarith), sub_neg_eq_add, one_div, inv_mul_cancel₀ (by linarith)]

/-- What a round makes of the emulator. -/
def after_round (s : FakeCubeMars ℚ) (now : ℚ) (received : Option (CanFrame × ℚ)) : FakeCubeMars ℚ :=
  (s.round rational_exp now received).toOption.getD s

theorem after_round_next {s : FakeCubeMars ℚ} {now : ℚ} {received : Option (CanFrame × ℚ)}
    (hclock : decide (s.last ≤ now) = true) (hlives : (s.round rational_exp now received).isOk = true) :
    next rational_exp s (.round now received) (after_round s now received) := by
  apply next.round now received (of_decide_eq_true hclock)
  unfold after_round
  cases hround : s.round rational_exp now received with
  | error e => simp [hround, Except.isOk, Except.toBool] at hlives
  | ok s' => rfl

/-- An emulator with motor 1 and a CAN timeout of one second. -/
def one_motor : FakeCubeMars ℚ where
  rate := 100
  timeout := 1
  motors := [(1, .new 1 720)]
  last := 0
  next_tick := 0

theorem one_motor_starts : FakeCubeMars.start [1] 100 720 1 0 = some one_motor := by
  unfold FakeCubeMars.start
  rw [if_neg (by decide +kernel)]
  rfl

/-- Motor 1 is driven at 1000 ERPM. -/
def driven : FakeCubeMars ℚ := after_round (after_round one_motor 0 none) 0 (some (int32_frame 0x301 1000, 0))

theorem driven_run : Run (next rational_exp) one_motor
    [.round 0 none, .round 0 (some (int32_frame 0x301 1000, 0))] driven :=
  (Run.single (after_round_next (by decide +kernel) (by decide +kernel))).snoc
    (after_round_next (by decide +kernel) (by decide +kernel))

end IotRobot.Emulator
