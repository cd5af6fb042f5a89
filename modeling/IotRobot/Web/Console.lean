import IotRobot.Web.Page
import IotRobot.Web.Switching

/-!
# Driving from a page

The driving part of `app.js` with the WebSockets of one page, and the server. Each connection
keeps the order of its messages; the server knows it under a client id of its own. An old
connection can still bring messages while the page has opened a new one, until the server
notices that it has ended.
-/

namespace IotRobot.Web

open Lib

set_option autoImplicit false

/-- The keys of `DRIVE_KEYS`. -/
inductive DriveKey where
  | KeyW | ArrowUp | KeyS | ArrowDown | KeyA | ArrowLeft | KeyD | ArrowRight
  deriving DecidableEq

namespace DriveKey

/-- The linear and the angular axis. -/
def axes : DriveKey → Int × Int
  | KeyW | ArrowUp => (1, 0)
  | KeyS | ArrowDown => (-1, 0)
  | KeyA | ArrowLeft => (0, 1)
  | KeyD | ArrowRight => (0, -1)

def is_arrow : DriveKey → Bool
  | ArrowUp | ArrowDown | ArrowLeft | ArrowRight => true
  | _ => false

end DriveKey

/-- `state.driver`. -/
inductive Driver where
  | none
  | you
  | other
  deriving DecidableEq

/-- What the page takes from its browser: `Math.hypot`, the power `** 1.5`, and a number as
the server reads it from the JSON text. -/
structure Browser (K V : Type) where
  hypot : K → K → K
  power : K → K
  json : K → V

/-- A connection of the page. The server has handled the first `handled` of the messages sent
over it, and reads on while it is `served`. -/
structure Socket (Client V : Type) where
  client : Client
  sent : List (ClientMessage V) := []
  handled : Nat := 0
  served : Bool := true

namespace Socket
variable {Client V : Type}

/-- The messages that the server has handled. -/
def done (socket : Socket Client V) : List (ClientMessage V) := socket.sent.take socket.handled

/-- The messages on their way. -/
def in_flight (socket : Socket Client V) : List (ClientMessage V) :=
  socket.sent.drop socket.handled

end Socket

/-- One page and the server. `sockets` lists the connections of the page, oldest first; while
the page has a WebSocket it is the last of them. -/
structure Console (K Client V : Type) where
  page : Page K := {}
  driver : Driver := .none
  pointer : Option Nat := none
  x : K
  y : K
  keys : List DriveKey := []
  sending : Bool := false
  speed : K
  sockets : List (Socket Client V) := []
  server : WebServer K Client

/-- A step of the page, of its connections or of the server. Readings of `performance.now()`
are in milliseconds. `release_pointer` is `pointerup`, `pointercancel` or
`lostpointercapture`, `leave` a window that loses the focus or is hidden, and `lost` the end of
the server's handler of a connection. -/
inductive ConsoleStep (K Client V : Type) where
  | connect (client : Client)
  | opened
  | closing
  | closed
  | reload
  | hello (ui_version : String) (now : K)
  | telemetry (estop : Bool) (driver : Driver) (now : K)
  | press_pointer (pointer : Nat) (dx dy travel : K)
  | move_pointer (pointer : Nat) (dx dy travel : K)
  | release_pointer (pointer : Nat)
  | drive_key (key : DriveKey) (modified held on_slider : Bool)
  | drive_key_up (key : DriveKey)
  | keydown (key : Key) (modified : Bool) (now : K)
  | button_down (now : K)
  | button_up
  | frame (now : K)
  | leave
  | interval
  | set_speed (speed : K)
  | aim (yaw pitch : K)
  | choose_mode (mode : Mode)
  | deliver (i : Nat) (now : K)
  | lost (i : Nat) (now : K)
  | server (e : ServerEvent K Client V)

namespace Console

section Page
variable {K Client V : Type}

/-- `send`: a message goes out on an open connection only. -/
def send (message : ClientMessage V) (s : Console K Client V) : Bool × Console K Client V :=
  if s.page.ws = some .OPEN then
    (true, { s with sockets := s.sockets.modify (s.sockets.length - 1) fun socket =>
      { socket with sent := socket.sent ++ [message] } })
  else (false, s)

def can_control (s : Console K Client V) : Bool :=
  s.page.connected && !s.page.estop && decide (s.driver ≠ .other)

def lock_reason (s : Console K Client V) : String :=
  if s.page.connected = false then "Not connected"
  else if s.page.estop then "E-stop engaged"
  else if s.driver = .other then "Someone else is driving"
  else ""

def toast (text : String) (s : Console K Client V) : Console K Client V :=
  if text = "" then s else { s with page := { s.page with toasts := s.page.toasts ++ [text] } }

variable [Field K] [LinearOrder K] (browser : Browser K V)

def end_joystick (s : Console K Client V) : Console K Client V :=
  { s with pointer := none, x := 0, y := 0 }

def stop_driving (s : Console K Client V) : Console K Client V :=
  let s := { s with keys := [] }
  let s := if s.pointer ≠ none then s.end_joystick else s
  if s.sending then { (s.send .release).2 with sending := false } else s

/-- A small dead zone, then a gentle curve. -/
def shape (v : K) : K :=
  if |v| < 0.08 then 0
  else (if v < 0 then -1 else 1) * browser.power ((|v| - 0.08) / 0.92)

/-- `moveJoystick`, for a pointer at this offset from the centre. The knob stays inside the
ring. -/
def move_joystick (dx dy travel : K) (s : Console K Client V) : Console K Client V :=
  let length := browser.hypot dx dy
  let (dx, dy) := if travel < length then (dx * (travel / length), dy * (travel / length))
    else (dx, dy)
  { s with x := dx / travel, y := -dy / travel }

def press_pointer (pointer : Nat) (dx dy travel : K) (s : Console K Client V) :
    Console K Client V :=
  if s.pointer ≠ none then s
  else if s.can_control = false then s.toast s.lock_reason
  else { s with pointer := some pointer }.move_joystick browser dx dy travel

def keyboard_axes (keys : List DriveKey) : K × K :=
  (clamp (((keys.map fun key => key.axes.1).sum : Int) : K) (-1) 1,
    clamp (((keys.map fun key => key.axes.2).sum : Int) : K) (-1) 1)

/-- The axes of the control that is held. -/
def held_axes (s : Console K Client V) : Option (K × K) :=
  if s.pointer ≠ none then some (shape browser s.y, -shape browser s.x)
  else if s.keys ≠ [] then some (keyboard_axes s.keys)
  else none

/-- The function of `setInterval`. -/
def interval (s : Console K Client V) : Console K Client V :=
  match s.held_axes browser, s.can_control with
  | some (linear, angular), true =>
    let (sent, s) := s.send (.drive (browser.json linear) (browser.json angular)
      (browser.json s.speed))
    { s with sending := sent }
  | _, _ => if s.sending then { (s.send .release).2 with sending := false } else s

/-- The key handlers of the window, for a key that drives. -/
def drive_key (key : DriveKey) (modified held on_slider : Bool) (s : Console K Client V) :
    Console K Client V :=
  if modified then s
  else if on_slider && key.is_arrow then s
  else
    let s := if held = false ∧ s.can_control = false then s.toast s.lock_reason else s
    { s with keys := s.keys.insert key }

/-- The page is loaded anew; its connection stays until the server notices. -/
def reload (s : Console K Client V) : Console K Client V :=
  { s with
    page := {}, driver := .none, pointer := none, x := 0, y := 0, keys := [], sending := false }

/-- A function of the E-stop part of the page. Its messages go out on the connection, and
`setEstop` stops the driving when the E-stop becomes engaged. -/
def estop_part (f : Link K Client → Link K Client) (s : Console K Client V) :
    Console K Client V :=
  let link := f { page := s.page, server := ⟨s.server.clock, s.server.bridge⟩ }
  let t := { s with
    page := link.page
    sockets := s.sockets.modify (s.sockets.length - 1) fun socket =>
      { socket with sent := socket.sent ++ link.up.map .estop } }
  if s.page.estop = false ∧ link.page.estop = true then t.stop_driving else t

def on_hello (now : K) (ui_version : String) (s : Console K Client V) : Console K Client V :=
  let t := s.estop_part (Link.on_hello now ui_version)
  -- the robot restarted with a different page
  if s.page.ui_version ≠ none ∧ s.page.ui_version ≠ some ui_version then t.reload else t

def on_state (now : K) (estop : Bool) (driver : Driver) (s : Console K Client V) :
    Console K Client V :=
  { s.estop_part (Link.on_state now estop 0) with driver := driver }

end Page

variable {K Client V : Type} [Field K] [LinearOrder K] [FloorRing K] [DecidableEq Client]
variable (c : Parameters K) (l : LaunchParameters) (float : V → FloatResult K)
variable (browser : Browser K V)

/-- A step of the server. -/
def serve (e : ServerEvent K Client V) (s : Console K Client V) : Option (Console K Client V) :=
  if s.server.clock ≤ e.now then
    ({ s.server with clock := e.now }.taken c l float e.now e.step).map fun server =>
      { s with server := server }
  else none

/-- The server handles the next message of a connection. -/
def deliver (i : Nat) (now : K) (s : Console K Client V) : Option (Console K Client V) :=
  s.sockets[i]?.bind fun socket =>
    if socket.served then
      socket.sent[socket.handled]?.bind fun message =>
        { s with sockets := s.sockets.set i { socket with handled := socket.handled + 1 } }.serve
          c l float ⟨now, .message socket.client message⟩
    else none

/-- The server's handler of a connection ends. -/
def lost (i : Nat) (now : K) (s : Console K Client V) : Option (Console K Client V) :=
  s.sockets[i]?.bind fun socket =>
    if socket.served then
      { s with sockets := s.sockets.set i { socket with served := false } }.serve
        c l float ⟨now, .disconnect socket.client⟩
    else none

/-- The client for which a step of the server can drive. -/
def driver_of : Step K Client V → Option Client
  | .message client _ | .disconnect client | .call (.drive client _ _ _) => some client
  | _ => none

/-- The state after a step, if the step can be taken. The ids of this page's connections are
`mine`: `uuid4` gives no two connections the same one. -/
def taken (mine : Client → Bool) (step : ConsoleStep K Client V) (s : Console K Client V) :
    Option (Console K Client V) :=
  match step with
  | .connect client =>
    if s.page.ws = none ∧ mine client ∧ client ∉ s.sockets.map Socket.client then
      some { s with
        page := { s.page with ws := some .CONNECTING }
        sockets := s.sockets ++ [{ client := client }] }
    else none
  | .opened =>
    if s.page.ws = some .CONNECTING then some { s with page := { s.page with ws := some .OPEN } }
    else none
  | .closing =>
    if s.page.ws = none then none
    else some { s with page := { s.page with ws := some .CLOSING } }
  | .closed =>
    if s.page.ws = none then none
    else some { s with page := { s.page with ws := none, connected := false } }.stop_driving
  | .reload => some s.reload
  | .hello ui_version now =>
    if s.page.ws = some .OPEN then some (s.on_hello now ui_version) else none
  | .telemetry estop driver now =>
    if s.page.ws = some .OPEN then some (s.on_state now estop driver) else none
  | .press_pointer pointer dx dy travel => some (s.press_pointer browser pointer dx dy travel)
  | .move_pointer pointer dx dy travel =>
    some (if s.pointer = some pointer then s.move_joystick browser dx dy travel else s)
  | .release_pointer pointer =>
    some (if s.pointer = some pointer then s.end_joystick else s)
  | .drive_key key modified held on_slider => some (s.drive_key key modified held on_slider)
  | .drive_key_up key => some { s with keys := s.keys.erase key }
  | .keydown key modified now => some (s.estop_part fun link => link.keydown now key modified)
  | .button_down now => some (s.estop_part fun link => link.button_down now)
  | .button_up => some (s.estop_part Link.cancel_hold)
  | .frame now => some (s.estop_part fun link => link.hold_tick now)
  | .leave => some s.stop_driving
  | .interval => some (s.interval browser)
  | .set_speed speed => some { s with speed := speed }
  | .aim yaw pitch => some (s.send (.gizmo (browser.json yaw) (browser.json pitch))).2
  | .choose_mode mode =>
    some (if s.page.connected then (s.send (.mode (some mode))).2 else s)
  | .deliver i now => s.deliver c l float i now
  | .lost i now => s.lost c l float i now
  | .server e => if (driver_of e.step).any mine then none else s.serve c l float e

def next (mine : Client → Bool) (s : Console K Client V) (step : ConsoleStep K Client V)
    (s' : Console K Client V) : Prop :=
  s.taken c l float browser mine step = some s'

omit [FloorRing K] in
/-- A page that is loaded when the server starts at `t`. -/
def start (t : K) : Console K Client V where
  x := 0
  y := 0
  speed := 0.5
  server := WebServer.start c t

/-- The state after the steps, if all of them can be taken in this order. -/
def play (mine : Client → Bool) (s : Console K Client V) :
    List (ConsoleStep K Client V) → Option (Console K Client V)
  | [] => some s
  | step :: steps => (s.taken c l float browser mine step).bind fun s => s.play mine steps

theorem run_play {mine : Client → Bool} {steps : List (ConsoleStep K Client V)}
    {s s' : Console K Client V} (h : s.play c l float browser mine steps = some s') :
    Run (next c l float browser mine) s steps s' := by
  induction steps generalizing s with
  | nil =>
    cases h
    exact .nil
  | cons step steps ih =>
    obtain ⟨between, hstep, hrest⟩ := Option.bind_eq_some_iff.mp h
    have hfirst : next c l float browser mine s step between := hstep
    exact (Run.single hfirst).append (ih hrest)

end Console

end IotRobot.Web
