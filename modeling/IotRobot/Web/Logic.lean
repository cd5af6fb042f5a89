import IotRobot.Lib.Dbl
import IotRobot.Lib.Rounding

/-!
# Control rules of the web controller

The functions of `logic.py` that drive the robot. Commands, parameters and times are
numbers of an ordered field in exact arithmetic; readings and the stamps that start at
minus infinity are doubles.
-/

namespace IotRobot.Web

open Lib

set_option autoImplicit false

inductive Side where
  | left
  | right
  deriving DecidableEq

/-- `SIDES`, which is also its sorted order. -/
def SIDES : List Side := [.left, .right]

theorem mem_SIDES (side : Side) : side ∈ SIDES := by cases side <;> decide

/-- What `float(value)` does with a client-supplied value. -/
inductive FloatResult (K : Type) where
  | value (x : Dbl K)
  | TypeError
  | ValueError
  | OverflowError

/-- An `OverflowError` that leaves a function. -/
inductive Overflow where
  | OverflowError

section Numbers
variable {K V : Type} (float : V → FloatResult K)

/-- Coerce a client-supplied number to a finite float; an integer beyond the range of
a double raises. -/
def finite_or_zero [Zero K] (value : V) : Except Overflow K :=
  match float value with
  | .value (.fin x) => .ok x
  | .value _ => .ok 0
  | .TypeError | .ValueError => .ok 0
  | .OverflowError => .error .OverflowError

variable [Field K] [LinearOrder K]

def clamp (value low high : K) : K := max low (min high value)

def scale_command (linear_axis angular_axis speed : V) (max_linear max_angular max_speed : K) :
    Except Overflow (K × K) := do
  let speed := clamp (← finite_or_zero float speed) 0 (max max_speed 0)
  let linear := clamp (← finite_or_zero float linear_axis) (-1) 1 * speed * max_linear
  let angular := clamp (← finite_or_zero float angular_axis) (-1) 1 * speed * max_angular
  return (linear, angular)

end Numbers

/-- Lets one client drive at a time. -/
structure DriverLock (K Client : Type) where
  timeout : K
  driver : Option Client := none
  last_command : Dbl K := .ninf

namespace DriverLock
variable {K Client : Type} [Field K] [LinearOrder K] [DecidableEq Client]

/-- The driver's last command is `timeout` old at `now`. -/
def expired (lock : DriverLock K Client) (now : K) : Bool :=
  decide (.fin lock.timeout ≤ .fin now - lock.last_command)

def holder (lock : DriverLock K Client) (now : K) : Option Client × DriverLock K Client :=
  if lock.driver ≠ none ∧ lock.expired now then (none, { lock with driver := none })
  else (lock.driver, lock)

def request (lock : DriverLock K Client) (client : Client) (now : K) :
    Bool × DriverLock K Client :=
  let (holder, lock) := lock.holder now
  if holder ≠ none ∧ holder ≠ some client then (false, lock)
  else (true, { lock with driver := some client, last_command := .fin now })

def release (lock : DriverLock K Client) (client : Client) : Bool × DriverLock K Client :=
  if lock.driver ≠ some client then (false, lock)
  else (true, { lock with driver := none, last_command := .ninf })

end DriverLock

section Guard
variable {K : Type} [Field K] [LinearOrder K]

def braking_distance (linear reaction_time deceleration : K) : K :=
  if linear ≤ 0 then 0
  else
    let distance := linear * max reaction_time 0
    if 0 < deceleration then distance + linear * linear / (2.0 * deceleration) else distance

/-- A stale reading (`none`) or one the sensor flagged as invalid. -/
def is_missing (distance : Option (Dbl K)) : Bool :=
  match distance with
  | none => true
  | some d => d.isNaN

/-- The order of the pairs `(distance, side)`. -/
def nearer (a b : Dbl K × Side) : Bool :=
  decide (a.1 < b.1) || (decide (a.1 = b.1) && (a.2 = .left && b.2 = .right))

/-- The pairs `(distance, side)` of the readings that are not missing. -/
def readings_of (distances : Side → Option (Dbl K)) : List (Dbl K × Side) :=
  SIDES.filterMap fun side =>
    if is_missing (distances side) then none else (distances side).map fun d => (d, side)

def nearest_obstacle (distances : Side → Option (Dbl K)) : Option (Side × Dbl K) :=
  match readings_of distances with
  | [] => none
  | first :: rest =>
    let least := rest.foldl (fun least reading => if nearer reading least then reading else least)
      first
    some (least.2, least.1)

/-- What holds back a forward command: a side, with its distance unless it has no data. -/
abbrev Blocking (K : Type) := Side × Option (Dbl K)

/-- The guard once no reading is below the stop distance: with `require_data` a side
without a valid reading blocks too. -/
def guard_missing (linear : K) (distances : Side → Option (Dbl K)) (require_data : Bool) :
    K × Option (Blocking K) :=
  match if require_data then SIDES.find? fun side => is_missing (distances side) else none with
  | some side => (min linear 0, some (side, none))
  | none => (linear, none)

def guard_command (linear : K) (distances : Side → Option (Dbl K)) (stop_distance : K)
    (require_data : Bool) : K × Option (Blocking K) :=
  if stop_distance ≤ 0 then (linear, none)
  else
    match nearest_obstacle distances with
    | some (side, distance) =>
      if distance < .fin stop_distance then (min linear 0, some (side, some distance))
      else guard_missing linear distances require_data
    | none => guard_missing linear distances require_data

end Guard

inductive Level where
  | NO_DATA
  | GREEN
  | YELLOW
  | RED
  deriving DecidableEq

section Light
variable {K : Type} [Field K] [LinearOrder K] [FloorRing K]

def SLOWEST_BLINK : K := 1
def FASTEST_BLINK : K := 0.2

def classify_range (distance : Option (Dbl K)) (warn_distance danger_distance : K) :
    Level × Option K :=
  match distance with
  | none => (.NO_DATA, none)
  | some d =>
    if d.isNaN then (.NO_DATA, none)
    else
      let level :=
        if .fin warn_distance ≤ d then Level.GREEN
        else if .fin danger_distance ≤ d then .YELLOW
        else .RED
      -- `clamp` on doubles: an infinite reading counts as 1
      let fraction : Dbl K :=
        if 0 < warn_distance then
          Dbl.maximum (.fin 0) (Dbl.minimum (.fin 1) (d.scale (1 / warn_distance)))
        else .fin 1
      let period := FASTEST_BLINK + fraction.toK 0 * (SLOWEST_BLINK - FASTEST_BLINK)
      (level, some (round_digits 3 period))

end Light

structure EchoFilter (K : Type) (V : Type := Bool) where
  timeout : K
  outstanding : List (V × K) := []

namespace EchoFilter
variable {K V : Type} [Field K] [LinearOrder K] [DecidableEq V]

def sent (filter : EchoFilter K V) (value : V) (now : K) : EchoFilter K V :=
  { filter with outstanding := filter.outstanding ++ [(value, now)] }

/-- The outstanding values that are not older than `timeout`, from the oldest such on. -/
def unexpired (filter : EchoFilter K V) (now : K) : List (V × K) :=
  filter.outstanding.dropWhile fun entry => decide (filter.timeout < now - entry.2)

def is_echo (filter : EchoFilter K V) (value : V) (now : K) : Bool × EchoFilter K V :=
  match filter.unexpired now with
  | [] => (false, { filter with outstanding := [] })
  | entry :: rest =>
    if entry.1 = value then (true, { filter with outstanding := rest })
    else (false, { filter with outstanding := entry :: rest })

end EchoFilter

end IotRobot.Web
