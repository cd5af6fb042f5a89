import IotRobot.Web.Bridge

/-!
# The telemetry of the browser controller

`RobotBridge.snapshot`: what every page is shown. It changes nothing but the driver lock,
which lets an expired holder go.
-/

namespace IotRobot.Web

open Lib

set_option autoImplicit false

section Records
variable (K Client : Type)

/-- `"clear"` when nothing echoes back, else a number, `none` for `null`. -/
inductive ShownDistance where
  | clear
  | number (metres : Option K)

structure Ultrasonic where
  distance : ShownDistance K
  level : Level
  period : Option K

structure ShownGuard where
  obstacle : Bool
  blocking : Bool
  side : Option Side
  distance : Option K

structure ShownBattery where
  voltage : Option K
  percent : Int

structure Telemetry where
  estop : Bool
  holder : Option Client
  command : Option (Option K × Option K)
  ultrasonic : Side → Ultrasonic K
  guard : ShownGuard K
  odom : Option (Option K × Option K)
  battery : Option (ShownBattery K)
  person_status : Option String
  gizmo : Option K × Option K
  video_age : Option K
  follower_ready : Bool
  detector_ready : Bool

end Records

/-- What `snapshot` can raise. -/
inductive SnapshotError where
  | ZeroDivisionError
  | TypeError

variable {K Client : Type} [Field K] [LinearOrder K] [FloorRing K]

/-- A JSON-safe number. -/
def number (digits : Nat) (value : Option (Dbl K)) : Option K :=
  match value with
  | some (.fin x) => some (round_digits digits x)
  | _ => none

def shown_ultrasonic (c : Parameters K) (distance : Option (Dbl K)) : Ultrasonic K :=
  let (level, period) := classify_range distance c.warn_distance c.danger_distance
  { distance := if distance = some .pinf then .clear else .number (number 3 distance)
    level := level
    period := period }

def shown_battery (c : Parameters K) (voltage : Option K) :
    Except SnapshotError (ShownBattery K) :=
  let span := c.battery_full - c.battery_empty
  match voltage with
  | none => .error .TypeError
  | some v =>
    if span = 0 then .error .ZeroDivisionError
    else .ok
      { voltage := number 2 (some (.fin v))
        percent := round_even (100.0 * clamp ((v - c.battery_empty) / span) 0 1) }

namespace RobotBridge
variable [DecidableEq Client] (c : Parameters K) (now : K)

/-- What disables forward motion: an obstacle within the stop distance of a robot at rest,
a side without data, or whatever holds back the driver's command right now. -/
def shown_guard (s : RobotBridge K Client) : ShownGuard K :=
  let (_, obstacle) := guard_command 1 (s.fresh_ranges c now) c.stop_distance
    c.require_ultrasonic
  let obstacle := obstacle.or s.guard
  { obstacle := obstacle.isSome
    blocking := s.guard.isSome
    side := obstacle.map Prod.fst
    distance := number 3 (obstacle.bind Prod.snd) }

/-- The telemetry shared by every client. -/
def snapshot (s : RobotBridge K Client) :
    Except SnapshotError (Telemetry K Client) × RobotBridge K Client :=
  let odom := if .fin now - s.odom.2 < .fin c.sensor_timeout
    then some (number 3 (some s.odom.1.1), number 3 (some s.odom.1.2)) else none
  let battery := if .fin now - s.battery.2 < .fin 5.0
    then (shown_battery c s.battery.1).map some else .ok none
  match battery with
  | .error e => (.error e, s)
  | .ok battery =>
    let (holder, driver_lock) := s.driver_lock.holder now
    (.ok
      { estop := s.estop
        holder := holder
        command := s.published.map fun sent =>
          (number 3 (some (.fin sent.1)), number 3 (some (.fin sent.2)))
        ultrasonic := fun side => shown_ultrasonic c (s.fresh_ranges c now side)
        guard := s.shown_guard c now
        odom := odom
        battery := battery
        person_status := if .fin now - s.person_status.2 < .fin 2.0 then s.person_status.1
          else none
        gizmo := (number 3 (some (.fin s.gizmo.1)), number 3 (some (.fin s.gizmo.2)))
        video_age := number 2 (some (.fin now - s.image_time))
        follower_ready := s.follower_ready
        detector_ready := s.detector_ready },
      { s with driver_lock := driver_lock })

end RobotBridge

end IotRobot.Web
