import IotRobot.Web.Logic

/-!
# The ROS side of the browser controller

`RobotBridge` with the methods that the ROS thread and the web thread call. Each method
holds the bridge's lock and looks at the monotonic clock, so it is one atomic step at an
instant `now`. What it publishes is appended to `sent`, which no method reads.
-/

namespace IotRobot.Web

open Lib

set_option autoImplicit false

inductive Mode where
  | DRIVE
  | BALL
  | PERSON
  deriving DecidableEq

/-- The parameters that the methods read. -/
structure Parameters (K : Type) where
  max_linear : K
  max_angular : K
  /-- The parameter `turbo_speed`, at least 1. -/
  turbo_speed : K
  command_timeout : K
  driver_timeout : K
  start_estopped : Bool
  stop_distance : K
  reaction_time : K
  deceleration : K
  warn_distance : K
  danger_distance : K
  sensor_timeout : K
  require_ultrasonic : Bool
  yaw_limit : K
  pitch_min : K
  pitch_max : K
  battery_empty : K
  battery_full : K
  image_topics : Mode → String

/-- The values of `web_controller.yaml`. -/
def web_controller_yaml {K : Type} [Field K] : Parameters K where
  max_linear := 0.4
  max_angular := 1.5
  turbo_speed := 3.0
  command_timeout := 0.3
  driver_timeout := 2.0
  start_estopped := false
  stop_distance := 0.25
  reaction_time := 0.2
  deceleration := 2.0
  warn_distance := 1
  danger_distance := 0.4
  sensor_timeout := 1
  require_ultrasonic := true
  yaw_limit := 0.785398
  pitch_min := -0.785398
  pitch_max := 0
  battery_empty := 21.0
  battery_full := 25.2
  image_topics
    | .DRIVE => "/camera/image_raw"
    | .BALL => "/ball/debug_image"
    | .PERSON => "/person/debug_image"

/-- A published message: `/cmd_vel/web`, `/e_stop` or `/gizmo_controller/commands`. -/
inductive Message (K : Type) where
  | twist (linear angular : K)
  | estop (data : Bool)
  | gizmo (yaw pitch : K)
  deriving DecidableEq

/-- `(linear, angular, monotonic time)` from the driver. -/
structure Command (K : Type) where
  linear : K
  angular : K
  time : K

structure RobotBridge (K Client : Type) where
  driver_lock : DriverLock K Client
  command : Option (Command K) := none
  published : Option (K × K) := none
  guard : Option (Blocking K) := none
  estop : Bool
  estop_echo : EchoFilter K
  estop_known : Bool := false
  mode : Mode := .DRIVE
  gizmo : K × K
  ranges : Side → Option (Dbl K) × Dbl K := fun _ => (none, .ninf)
  odom : (Dbl K × Dbl K) × Dbl K
  battery : Option K × Dbl K := (none, .ninf)
  person_status : Option String × Dbl K := (none, .ninf)
  follower_ready : Bool := false
  detector_ready : Bool := false
  streaming : Bool := false
  image_topic : Option String := none
  image_sub : Option String := none
  image_time : Dbl K := .ninf
  sent : List (Message K) := []

namespace RobotBridge

section Plain
variable {K Client : Type}

def publish (message : Message K) (s : RobotBridge K Client) : RobotBridge K Client :=
  { s with sent := s.sent ++ [message] }

def publish_twist (linear angular : K) (s : RobotBridge K Client) : RobotBridge K Client :=
  s.publish (.twist linear angular)

def publish_gizmo (yaw pitch : K) (s : RobotBridge K Client) : RobotBridge K Client :=
  { s with gizmo := (yaw, pitch) }.publish (.gizmo yaw pitch)

/-- Engaging drops the driver's command, so that it does not resume on release. -/
def apply_estop (engaged : Bool) (s : RobotBridge K Client) : RobotBridge K Client :=
  if engaged then { s with command := none, guard := none, published := none, estop := engaged }
  else { s with estop := engaged }

def wanted_image_topic (c : Parameters K) (s : RobotBridge K Client) : Option String :=
  if s.streaming then some (c.image_topics s.mode) else none

end Plain

variable {K Client V : Type} [Field K] [LinearOrder K] [DecidableEq Client]
variable (c : Parameters K) (float : V → FloatResult K) (now : K)

def publish_estop (s : RobotBridge K Client) : RobotBridge K Client :=
  { s with estop_known := true, estop_echo := s.estop_echo.sent s.estop now }.publish
    (.estop s.estop)

/-- The reading of each side, `none` once it is `sensor_timeout` old. -/
def fresh_ranges (s : RobotBridge K Client) (side : Side) : Option (Dbl K) :=
  if .fin now - (s.ranges side).2 < .fin c.sensor_timeout then (s.ranges side).1 else none

/-- One zero when the driver lets go or goes silent. -/
def publish_zero (s : RobotBridge K Client) : RobotBridge K Client :=
  if s.published.isSome then { s.publish_twist 0 0 with published := none } else s

/-- The node as `__init__` leaves it. -/
def init : RobotBridge K Client :=
  let s : RobotBridge K Client :=
    { driver_lock := { timeout := c.driver_timeout }
      estop := c.start_estopped
      estop_echo := { timeout := 1 }
      gizmo := (0, 0)
      odom := ((.fin 0, .fin 0), .ninf) }
  if c.start_estopped then s.publish_estop now else s

def on_range (side : Side) (range : Dbl K) (s : RobotBridge K Client) : RobotBridge K Client :=
  -- REP 117: -inf means closer than the sensor can measure
  let distance := match range with
    | .ninf => .fin 0
    | range => range
  { s with ranges := fun other => if other = side then (some distance, .fin now)
                                  else s.ranges other }

def on_odom (linear angular : Dbl K) (s : RobotBridge K Client) : RobotBridge K Client :=
  { s with odom := ((linear, angular), .fin now) }

def on_battery (voltage : Dbl K) (s : RobotBridge K Client) : RobotBridge K Client :=
  match voltage with
  | .fin v => if 0 < v then { s with battery := (some v, .fin now) } else s
  | _ => s

def on_person_status (data : String) (s : RobotBridge K Client) : RobotBridge K Client :=
  { s with person_status := (some data, .fin now) }

/-- A message on `/e_stop`, the node's own or another publisher's. -/
def on_estop (engaged : Bool) (s : RobotBridge K Client) : RobotBridge K Client :=
  let (echo, estop_echo) := s.estop_echo.is_echo engaged now
  let s := { s with estop_echo := estop_echo }
  if echo then s
  else
    let s := { s with estop_known := true }
    if engaged = s.estop then s else s.apply_estop engaged

/-- A frame on the subscribed topic; one of the previous mode's topic is dropped. -/
def on_image (s : RobotBridge K Client) : RobotBridge K Client :=
  if s.image_sub = none ∨ s.image_sub ≠ s.image_topic then s
  else { s with image_time := .fin now }

def update_image_subscription (s : RobotBridge K Client) : RobotBridge K Client :=
  let s := if s.image_sub ≠ none ∧ s.image_sub ≠ s.image_topic then { s with image_sub := none }
    else s
  if s.image_sub = none then { s with image_sub := s.image_topic } else s

/-- The stop distance of a tick: it grows with the commanded speed, up to 0.3 m. -/
def tick_stop_distance (linear : K) : K :=
  let stop_distance := c.stop_distance
  let stop_distance :=
    if 0 < stop_distance then
      stop_distance + braking_distance linear c.reaction_time c.deceleration
    else stop_distance
  min stop_distance 0.3

/-- The command that is younger than `command_timeout`. -/
def live_command (s : RobotBridge K Client) : Option (Command K) :=
  s.command.filter fun command => !decide (c.command_timeout ≤ now - command.time)

def on_drive_timer (s : RobotBridge K Client) : RobotBridge K Client :=
  match s.live_command c now with
  | none => { s with command := none, guard := none }.publish_zero
  | some command =>
    let (guarded, blocking) := guard_command command.linear (s.fresh_ranges c now)
      (tick_stop_distance c command.linear) c.require_ultrasonic
    { s with
      guard := if guarded ≠ command.linear then blocking else none
      published := some (guarded, command.angular) }.publish_twist guarded command.angular

/-- Only an engaged E-stop is repeated. -/
def on_estop_timer (s : RobotBridge K Client) : RobotBridge K Client :=
  if s.estop then s.publish_estop now else s

def on_estop_startup (s : RobotBridge K Client) : RobotBridge K Client :=
  if s.estop_known = false then s.publish_estop now else s

def on_graph_timer (follower detector : Bool) (s : RobotBridge K Client) :
    RobotBridge K Client :=
  { s with follower_ready := follower, detector_ready := detector }

def may_control (client : Client) (s : RobotBridge K Client) : Bool × RobotBridge K Client :=
  let (holder, driver_lock) := s.driver_lock.holder now
  (decide (holder = none ∨ holder = some client), { s with driver_lock := driver_lock })

inductive DriveReply where
  | ok
  | estop
  | busy
  deriving DecidableEq

/-- Store a joystick command. A number that `float` cannot represent raises after the
lock was taken. -/
def drive (client : Client) (linear_axis angular_axis speed : V) (s : RobotBridge K Client) :
    Except Overflow DriveReply × RobotBridge K Client :=
  if s.estop then (.ok .estop, s)
  else
    let (_, driver_lock) := s.driver_lock.holder now
    let (granted, driver_lock) := driver_lock.request client now
    let s := { s with driver_lock := driver_lock }
    if granted = false then (.ok .busy, s)
    else
      match scale_command float linear_axis angular_axis speed c.max_linear c.max_angular
        c.turbo_speed with
      | .error e => (.error e, s)
      | .ok (linear, angular) => (.ok .ok, { s with command := some ⟨linear, angular, now⟩ })

/-- The driver let go: stop now. A disconnect also frees the driver lock. -/
def release (client : Client) (disconnected : Bool) (s : RobotBridge K Client) :
    RobotBridge K Client :=
  let (holder, driver_lock) := s.driver_lock.holder now
  let s := { s with driver_lock := driver_lock }
  if holder ≠ some client then s
  else
    let s := if disconnected then { s with driver_lock := (s.driver_lock.release client).2 } else s
    { s with command := none, guard := none }.publish_zero

/-- Returns whether the E-stop changed. A zero goes out before twist_mux is locked. -/
def set_estop (engaged : Bool) (s : RobotBridge K Client) : Bool × RobotBridge K Client :=
  let changed := decide (engaged ≠ s.estop)
  let s := if engaged then s.publish_twist 0 0 else s
  (changed, (s.apply_estop engaged).publish_estop now)

inductive AimRefusal where
  | mode
  | estop
  | busy
  deriving DecidableEq

/-- The texts that `aim_gizmo` returns. -/
def AimRefusal.text : AimRefusal → String
  | .mode => "The follower aims the camera in this mode"
  | .estop => "Release the E-stop first"
  | .busy => "Someone else is driving. Wait until they let go."

/-- Point the camera: `none` on success, else the reason it was refused. -/
def aim_gizmo (client : Client) (yaw pitch : V) (s : RobotBridge K Client) :
    Except Overflow (Option AimRefusal) × RobotBridge K Client :=
  if s.mode ≠ .DRIVE then (.ok (some .mode), s)
  else if s.estop then (.ok (some .estop), s)
  else
    let (granted, driver_lock) := s.driver_lock.request client now
    let s := { s with driver_lock := driver_lock }
    if granted = false then (.ok (some .busy), s)
    else
      match finite_or_zero float yaw with
      | .error e => (.error e, s)
      | .ok yaw =>
        match finite_or_zero float pitch with
        | .error e => (.error e, s)
        | .ok pitch =>
          (.ok none, s.publish_gizmo (clamp yaw (-c.yaw_limit) c.yaw_limit)
            (clamp pitch c.pitch_min c.pitch_max))

def set_mode (mode : Mode) (s : RobotBridge K Client) : RobotBridge K Client :=
  let s := { s with mode := mode }
  let s := { s with image_topic := s.wanted_image_topic c }
  if mode = .DRIVE then s.publish_gizmo 0 0 else s

def set_streaming (streaming : Bool) (s : RobotBridge K Client) : RobotBridge K Client :=
  let s := { s with streaming := streaming }
  { s with image_topic := s.wanted_image_topic c }

end RobotBridge

end IotRobot.Web
