import IotRobot.Lib.Motion
import IotRobot.Can.Commands

/-!
# The emulated motor between two commands

The part of `FakeMotor` of `fake_cubemars.py` that moves: the motion of one tick, the status
frame, and what is done to a motor by hand. The exponential function of `math` is a parameter.
-/

namespace IotRobot.Emulator

open Lib Can

set_option autoImplicit false

deriving instance DecidableEq for FakeMotor

/-- An emulated servo-mode motor: what a command reads and writes, and the rest. -/
structure EmulatedMotor (K : Type) extends FakeMotor K where
  can_id : Nat
  speed_erpm : K
  temperature_c : Int
  silent : Bool
  stuck : Bool
  load_current_a : K
  deriving DecidableEq

section Model
variable {K : Type} [Field K]

/-- A released motor coasts to a stop with this time constant, in seconds. -/
def COAST_TIME_CONSTANT : K := 0.1

def DEFAULT_POSITION_SPEED : K := 720.0

def erpm_from_dps (dps : K) (pole_pairs gear_ratio : Int) : K := dps * pole_pairs * gear_ratio / 6.0

namespace EmulatedMotor

/-- A motor as `FakeCubeMars` makes it. -/
def new (can_id : Nat) (position_speed : K) : EmulatedMotor K where
  encoder_deg := 0
  origin_deg := 0
  permanent_origin_deg := 0
  error := 0
  mode := .idle
  command_current_a := 0
  target_erpm := 0
  target_deg := 0
  move_dps := DEFAULT_POSITION_SPEED
  position_speed_dps := position_speed
  ignore_origin := false
  last_command := none
  pole_pairs := POLE_PAIRS
  gear_ratio := GEAR_RATIO
  can_id := can_id
  speed_erpm := 0
  temperature_c := 25
  silent := false
  stuck := false
  load_current_a := 0

/-- Position relative to the origin, as the status frame reports it. -/
def position_deg (m : EmulatedMotor K) : K := m.encoder_deg - m.origin_deg

/-- Move the joint by hand. -/
def set_position (position_deg : K) (m : EmulatedMotor K) : EmulatedMotor K :=
  { m with encoder_deg := position_deg + m.origin_deg }

def release (m : EmulatedMotor K) : EmulatedMotor K :=
  { m with mode := .idle, command_current_a := 0 }

/-- Power off and on: the motor forgets its temporary origin and position. -/
def power_cycle (position_deg : K) (m : EmulatedMotor K) : EmulatedMotor K :=
  { m.release with
    speed_erpm := 0
    error := 0
    origin_deg := m.permanent_origin_deg
    encoder_deg := position_deg + m.permanent_origin_deg }

/-- A blocked joint, origins that it does not take, or a load. -/
def inject (stuck ignore_origin : Bool) (load_current_a : K) (m : EmulatedMotor K) : EmulatedMotor K :=
  { m with stuck := stuck, ignore_origin := ignore_origin, load_current_a := load_current_a }

/-- Reported current: commanded in current and brake mode, the load while driving. -/
def current_a (m : EmulatedMotor K) : K :=
  if m.error ≠ 0 then 0
  else
    match m.mode with
    | .current | .brake => m.command_current_a
    | .speed | .position => m.load_current_a
    | .idle => 0

variable [LinearOrder K]

/-- A servo command frame reaches the motor. -/
def command (mode : Nat) (data : List UInt8) (now : K) (m : EmulatedMotor K) :
    Except (Exception K) Bool × EmulatedMotor K :=
  let (result, motor) := m.toFakeMotor.command mode data now
  (result, { m with toFakeMotor := motor })

variable (exp : K → K)

/-- The branches of `step`: the encoder, which only the end of a move sets here, and the
speed. -/
def motion (dt : K) (m : EmulatedMotor K) : Except (Exception K) (K × K) :=
  if m.error ≠ 0 ∨ m.stuck ∨ m.mode = .brake then .ok (m.encoder_deg, 0)
  else
    match m.mode with
    | .speed => do
      let dps ← output_dps m.target_erpm m.pole_pairs m.gear_ratio
      return (m.encoder_deg, dps)
    | .position =>
      let remaining := m.target_deg - m.position_deg
      if |remaining| ≤ m.move_dps * dt ∨ dt ≤ 0 then .ok (m.target_deg + m.origin_deg, 0)
      else .ok (m.encoder_deg, copysign m.move_dps remaining)
    -- released or current mode: coast
    | _ =>
      if 0 < dt then do
        let dps ← output_dps m.speed_erpm m.pole_pairs m.gear_ratio
        return (m.encoder_deg, dps * exp (-dt / COAST_TIME_CONSTANT))
      else .ok (m.encoder_deg, 0)

/-- Advance the motion by `dt` seconds. -/
def step (dt : K) (m : EmulatedMotor K) : Except (Exception K) (EmulatedMotor K) := do
  let (encoder_deg, dps) ← m.motion exp dt
  return { m with
    encoder_deg := encoder_deg + dps * dt
    speed_erpm := erpm_from_dps dps m.pole_pairs m.gear_ratio }

def status [FloorRing K] (m : EmulatedMotor K) : CanFrame :=
  encode_status m.can_id m.position_deg m.speed_erpm m.current_a m.temperature_c m.error

end EmulatedMotor

end Model

namespace EmulatedMotor

/-- A command reaches the base of a motor alone. -/
theorem command_base {K : Type} [Field K] [LinearOrder K] {m m' : EmulatedMotor K} {mode : Nat}
    {data : List UInt8} {now : K} {result : Except (Exception K) Bool}
    (h : m.command mode data now = (result, m')) :
    m' = { m with toFakeMotor := (m.toFakeMotor.command mode data now).2 } :=
  (Prod.mk.inj h).2.symm

section Speeds
variable {K : Type} [Field K]

/-- The motor has a gearbox: a speed can be converted. -/
def Geared (m : EmulatedMotor K) : Prop := m.pole_pairs * m.gear_ratio ≠ 0

/-- Gearbox output speed in deg/s for a speed of this motor. -/
def dps_of (m : EmulatedMotor K) (erpm : K) : K := erpm * 6.0 / (m.pole_pairs * m.gear_ratio : Int)

/-- The speed of the joint. -/
def dps (m : EmulatedMotor K) : K := m.dps_of m.speed_erpm

theorem output_dps_geared {m : EmulatedMotor K} (hg : m.Geared) (erpm : K) :
    output_dps erpm m.pole_pairs m.gear_ratio = .ok (m.dps_of erpm) := if_neg hg

@[simp] theorem dps_of_zero (m : EmulatedMotor K) : m.dps_of 0 = 0 := by
  simp [dps_of]

end Speeds

section Steps
variable {K : Type} [Field K] [LinearOrder K] [IsStrictOrderedRing K]
  {exp : K → K} {m m' : EmulatedMotor K} {dt : K}

theorem dps_of_erpm_from_dps (hg : m.Geared) (speed : K) :
    m.dps_of (erpm_from_dps speed m.pole_pairs m.gear_ratio) = speed := by
  have hratio : ((m.pole_pairs * m.gear_ratio : Int) : K) ≠ 0 := Int.cast_ne_zero.mpr hg
  rw [dps_of, erpm_from_dps, div_mul_cancel₀ _ (by norm_num : (6.0 : K) ≠ 0), mul_assoc, ← Int.cast_mul,
    mul_div_cancel_right₀ _ hratio]

/-- What one step does: it moves the joint with the speed it ends with, and changes nothing
else. -/
structure Stepped (m : EmulatedMotor K) (dt encoder_deg speed : K) (m' : EmulatedMotor K) : Prop where
  moved : m' = { m with
    encoder_deg := encoder_deg + speed * dt
    speed_erpm := erpm_from_dps speed m.pole_pairs m.gear_ratio }
  dps : m'.dps = speed

omit [IsStrictOrderedRing K] in
/-- A step of a motor with a gearbox goes through. -/
theorem step_ok (hg : m.Geared) (exp : K → K) (dt : K) : ∃ m', m.step exp dt = .ok m' := by
  have hmotion : ∃ p, m.motion exp dt = .ok p := by
    by_cases hheld : m.error ≠ 0 ∨ m.stuck ∨ m.mode = .brake
    · exact ⟨_, if_pos hheld⟩
    rw [motion, if_neg hheld]
    simp only [output_dps_geared hg]
    cases m.mode with
    | speed => exact ⟨_, rfl⟩
    | position => split_ifs <;> exact ⟨_, rfl⟩
    | idle | current | brake => split_ifs <;> exact ⟨_, rfl⟩
  obtain ⟨p, hp⟩ := hmotion
  exact ⟨_, by rw [step, hp]; rfl⟩

theorem stepped_of_motion (hg : m.Geared) {encoder_deg speed : K}
    (hmotion : m.motion exp dt = .ok (encoder_deg, speed)) (h : m.step exp dt = .ok m') :
    Stepped m dt encoder_deg speed m' := by
  rw [step, hmotion] at h
  have hmoved := (Except.ok.inj h).symm
  exact ⟨hmoved, by rw [hmoved]; exact dps_of_erpm_from_dps hg speed⟩

/-- A motor that is faulted, blocked or braked stands. -/
theorem step_held (hg : m.Geared) (hheld : m.error ≠ 0 ∨ m.stuck ∨ m.mode = .brake)
    (h : m.step exp dt = .ok m') : Stepped m dt m.encoder_deg 0 m' :=
  stepped_of_motion hg (if_pos hheld) h

/-- In speed mode the joint turns as commanded. -/
theorem step_speed (hg : m.Geared) (hfree : ¬ (m.error ≠ 0 ∨ m.stuck ∨ m.mode = .brake))
    (hmode : m.mode = .speed) (h : m.step exp dt = .ok m') :
    Stepped m dt m.encoder_deg (m.dps_of m.target_erpm) m' := by
  apply stepped_of_motion hg _ h
  rw [motion, if_neg hfree, hmode]
  simp only [output_dps_geared hg]
  rfl

/-- In position mode the joint approaches the target. -/
theorem step_position (hg : m.Geared) (hfree : ¬ (m.error ≠ 0 ∨ m.stuck ∨ m.mode = .brake))
    (hmode : m.mode = .position) (hdt : 0 < dt) (h : m.step exp dt = .ok m') :
    m'.position_deg = approach m.target_deg (m.move_dps * dt) m.position_deg ∧
      ∃ encoder_deg speed, |speed| ≤ |m.move_dps| ∧ Stepped m dt encoder_deg speed m' := by
  by_cases hnear : |m.target_deg - m.position_deg| ≤ m.move_dps * dt
  · have hmotion : m.motion exp dt = .ok (m.target_deg + m.origin_deg, 0) := by
      rw [motion, if_neg hfree, hmode]
      exact if_pos (.inl hnear)
    have hstep := stepped_of_motion hg hmotion h
    refine ⟨?_, _, _, by simp, hstep⟩
    rw [approach_arrived hnear, hstep.moved]
    simp [position_deg]
  · have hmotion : m.motion exp dt =
        .ok (m.encoder_deg, copysign m.move_dps (m.target_deg - m.position_deg)) := by
      rw [motion, if_neg hfree, hmode]
      exact if_neg (not_or.mpr ⟨hnear, not_le.mpr hdt⟩)
    have hstep := stepped_of_motion hg hmotion h
    refine ⟨?_, _, _, (abs_copysign _ _).le, hstep⟩
    rw [approach, if_neg hnear, ← copysign_mul _ _ hdt.le, hstep.moved]
    simp only [position_deg]
    ring

/-- Otherwise the joint coasts. -/
theorem step_coast (hg : m.Geared) (hfree : ¬ (m.error ≠ 0 ∨ m.stuck ∨ m.mode = .brake))
    (hspeed : m.mode ≠ .speed) (hposition : m.mode ≠ .position) (h : m.step exp dt = .ok m') :
    (0 < dt ∧ Stepped m dt m.encoder_deg (m.dps * exp (-dt / COAST_TIME_CONSTANT)) m') ∨
      (dt ≤ 0 ∧ Stepped m dt m.encoder_deg 0 m') := by
  by_cases hdt : 0 < dt
  · left
    apply And.intro hdt
    apply stepped_of_motion hg _ h
    rw [motion, if_neg hfree]
    cases hmode : m.mode with
    | speed => exact absurd hmode hspeed
    | position => exact absurd hmode hposition
    | idle | current | brake =>
      simp only [if_pos hdt, output_dps_geared hg]
      rfl
  · right
    apply And.intro (not_lt.mp hdt)
    apply stepped_of_motion hg _ h
    rw [motion, if_neg hfree]
    cases hmode : m.mode with
    | speed => exact absurd hmode hspeed
    | position => exact absurd hmode hposition
    | idle | current | brake => simp only [if_neg hdt]

/-- A step leaves everything but the encoder and the speed as it was. -/
theorem step_moves (hg : m.Geared) (h : m.step exp dt = .ok m') :
    ∃ encoder_deg speed, Stepped m dt encoder_deg speed m' := by
  rw [step] at h
  cases hmotion : m.motion exp dt with
  | error e =>
    rw [hmotion] at h
    cases h
  | ok p => exact ⟨p.1, p.2, stepped_of_motion hg hmotion (by rw [step]; exact h)⟩

end Steps
end EmulatedMotor

end IotRobot.Emulator
