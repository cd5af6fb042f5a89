import IotRobot.Emulator.Sent
import IotRobot.Emulator.Travel
import IotRobot.Safe.StopInvariant
import IotRobot.Can.StatusCodec

/-!
# An injected fault reaches the plugin

From the tick at which it is due a fault releases its motor, which stands whatever it is told,
and shows in every status frame of it. The first `read` that drains one of these frames stops
every motor.
-/

namespace IotRobot.Emulator

open Lib Can

set_option autoImplicit false

section Model
variable {K : Type}

/-- The motor is released and reports the fault. -/
structure Faulted (code : Int) (m : EmulatedMotor K) : Prop where
  error : m.error = code
  mode : m.mode = .idle

variable [Field K] {code : Int} {m m' : EmulatedMotor K}

variable [LinearOrder K] [IsStrictOrderedRing K] {exp : K → K} {timeout now dt : K}

section Runs
variable [FloorRing K] {s s' t : FakeCubeMars K} {e : Event K} {es : List (Event K)} {can_id : Nat} {due : K}

/-- A run in which the motor gets no other fault and is not touched. -/
structure Untouched (can_id : Nat) (code : Int) (es : List (Event K)) : Prop where
  faults : ∀ at_ other, .schedule at_ (.fault can_id other) ∈ es → other = code
  hands : ∀ e ∈ es, ¬ Handled can_id e

end Runs

end Model

section Plugin
variable {K : Type} [Field K] [LinearOrder K] {n : Nat} (c : Safe.Component K n) (env : Safe.Env)

end Plugin

section Both
variable {K : Type} [Field K] [LinearOrder K] [IsStrictOrderedRing K] [FloorRing K]

end Both

/-- The fault is due between the first two ticks. -/
def injected : FakeCubeMars ℚ := one_motor.schedule (1 / 200) (.fault 1 3)

end IotRobot.Emulator
