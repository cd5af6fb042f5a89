import IotRobot.Web.Estop

/-!
# One page and the server's E-stop

The E-stop part of `app.js`, the messages on their way between the page and the server, and
the server itself, whose E-stop other pages and other ROS nodes change as well. What the page
sends can be lost or arrive late; telemetry reaches it in order while its connection lasts.
-/

namespace IotRobot.Web

open Lib

set_option autoImplicit false

/-- `readyState` of the page's WebSocket; after `onclose` there is none. -/
inductive ReadyState where
  | CONNECTING
  | OPEN
  | CLOSING
  deriving DecidableEq

structure EstopPending (K : Type) where
  value : Bool
  until_ : K

/-- `state` of `app.js` with the start of a hold on the button, as far as the E-stop reads
it, and the texts shown by `toast`, oldest first. `previous` is the E-stop of the last
telemetry. -/
structure Page (K : Type) where
  ws : Option ReadyState := none
  connected : Bool := false
  ui_version : Option String := none
  previous : Option Bool := none
  estop : Bool := false
  estop_pending : Option (EstopPending K) := none
  hold_start : Option K := none
  toasts : List String := []

/-- A message to the page. `taken` is the length that the log of the server's E-stop had at
the snapshot; the page does not see it. -/
inductive PageMessage where
  | hello (ui_version : String)
  | state (estop : Bool) (taken : Nat)

/-- The page, the server, the E-stop messages on their way to the server and the messages
on their way to the page. `log` lists the E-stop requests that the server obeyed, oldest
first, and `shown` is the length that it had at the snapshot the page last applied; no
function reads them. -/
structure Link (K Client : Type) where
  page : Page K := {}
  server : Node K Client
  up : List Bool := []
  down : List PageMessage := []
  log : List Bool := []
  shown : Nat := 0

/-- A key of the global key handler. -/
inductive Key where
  | Space
  | Escape
  | other
  deriving DecidableEq

/-- A step of the page, of the network or of the server. Readings of `performance.now()`
are in milliseconds. -/
inductive LinkStep (K Client V : Type) where
  | connect
  | opened (ui_version : String)
  | closing
  | closed
  | receive (now : K)
  | keydown (key : Key) (modified : Bool) (now : K)
  | button_down (now : K)
  | button_up
  | frame (now : K)
  | arrives (i : Nat) (now : K)
  | lost (i : Nat)
  | snapshot (now : K)
  | call (e : Event K Client V)

/-- The values that a call asks of the E-stop. An `/e_stop` message that the filter takes
for an echo asks nothing. -/
def estop_requests {K Client V : Type} [Field K] [LinearOrder K] (e : Event K Client V)
    (s : RobotBridge K Client) : List Bool :=
  match e.op with
  | .set_estop engaged => [engaged]
  | .on_estop engaged => if (s.estop_echo.is_echo engaged e.now).1 then [] else [engaged]
  | _ => []

namespace Link

section Page
variable {K Client : Type}

/-- `send` for an E-stop message: it goes out on an open connection only. -/
def send (engaged : Bool) (s : Link K Client) : Bool × Link K Client :=
  if s.page.ws = some .OPEN then (true, { s with up := s.up ++ [engaged] }) else (false, s)

def toast (text : String) (s : Link K Client) : Link K Client :=
  { s with page := { s.page with toasts := s.page.toasts ++ [text] } }

def set_estop (on : Bool) (s : Link K Client) : Link K Client :=
  { s with page := { s.page with estop := on } }

variable [Field K] [LinearOrder K] (now : K)

def HOLD_TO_RELEASE_MS : K := 1000
def ESTOP_CONFIRM_MS : K := 1500

/-- The press stays pending until telemetry confirms it. -/
def engage (s : Link K Client) : Link K Client :=
  let s := { s with page := { s.page with
    estop_pending := some ⟨true, now + ESTOP_CONFIRM_MS⟩ } }
  let (sent, s) := s.send true
  if sent = false then
    s.toast "Not connected. The stop is sent when the robot is back. Use the robot's switch."
  else s.set_estop true

def release (s : Link K Client) : Link K Client :=
  let (sent, s) := s.send false
  if sent = false then s.toast "Not connected"
  else
    let s := { s with page := { s.page with
      estop_pending := some ⟨false, now + ESTOP_CONFIRM_MS⟩ } }
    (s.set_estop false).toast "E-stop released"

/-- `onHello`. A page of another version is loaded anew, which connects again. -/
def on_hello (ui_version : String) (s : Link K Client) : Link K Client :=
  let s :=
    match s.page.estop_pending with
    | some pending =>
      if pending.value then
        let (sent, s) := s.send true
        if sent then
          { s with page := { s.page with
            estop_pending := some ⟨true, now + ESTOP_CONFIRM_MS⟩ } }
        else s
      else s
    | none => s
  if s.page.ui_version ≠ none ∧ s.page.ui_version ≠ some ui_version then
    { s with page := {}, down := [] }
  else { s with page := { s.page with ui_version := some ui_version, connected := true } }

/-- The page takes over the E-stop of a snapshot. -/
def apply_estop (estop : Bool) (taken : Nat) (s : Link K Client) : Link K Client :=
  let s := { s with page := { s.page with estop_pending := none }, shown := taken }
  s.set_estop estop

/-- `onState`, as far as it deals with the E-stop. -/
def on_state (estop : Bool) (taken : Nat) (s : Link K Client) : Link K Client :=
  let previous := s.page.previous
  let s := { s with page := { s.page with previous := some estop } }
  match s.page.estop_pending with
  | some pending =>
    if estop = pending.value then s.apply_estop estop taken
    else if now < pending.until_ then s
    else
      (s.toast (if pending.value
        then "The robot did not confirm the stop. Press STOP again or use the robot's switch."
        else "The robot did not confirm the release.")).apply_estop estop taken
  | none =>
    if previous ≠ none ∧ previous ≠ some estop then
      (s.toast (if estop then "Someone engaged the E-stop"
        else "Someone released the E-stop")).apply_estop estop taken
    else s.apply_estop estop taken

/-- The first message on its way to the page. -/
def receive (s : Link K Client) : Option (Link K Client) :=
  match s.down with
  | [] => none
  | .hello ui_version :: down => some ({ s with down := down }.on_hello now ui_version)
  | .state estop taken :: down => some ({ s with down := down }.on_state now estop taken)

/-- The key handler of the window. A key is `modified` if Ctrl, Meta or Alt is held. -/
def keydown (key : Key) (modified : Bool) (s : Link K Client) : Link K Client :=
  if modified then s
  else if key = .Space ∨ key = .Escape then if s.page.estop = false then s.engage now else s
  else s

/-- `pointerdown` on the button, or Enter or Space while it has the focus. -/
def button_down (s : Link K Client) : Link K Client :=
  if s.page.estop = false then s.engage now
  else if s.page.hold_start ≠ none then s
  else { s with page := { s.page with hold_start := some now } }

def cancel_hold (s : Link K Client) : Link K Client :=
  { s with page := { s.page with hold_start := none } }

/-- `holdTick`, in an animation frame. -/
def hold_tick (s : Link K Client) : Link K Client :=
  match s.page.hold_start with
  | none => s
  | some start =>
    if 1 ≤ min 1 ((now - start) / HOLD_TO_RELEASE_MS) then s.cancel_hold.release now else s

end Page

variable {K Client V : Type} [Field K] [LinearOrder K] [FloorRing K] [DecidableEq Client]
variable (c : Parameters K) (float : V → FloatResult K)

/-- A call of the server's bridge. -/
def call (e : Event K Client V) (s : Link K Client) : Link K Client :=
  { s with
    server := ⟨e.now, perform c float e s.server.bridge⟩
    log := s.log ++ estop_requests e s.server.bridge }

/-- The state after a step, if the step can be taken. -/
def taken (step : LinkStep K Client V) (s : Link K Client) : Option (Link K Client) :=
  match step with
  | .connect =>
    if s.page.ws = none then some { s with page := { s.page with ws := some .CONNECTING } }
    else none
  | .opened ui_version =>
    if s.page.ws = some .CONNECTING then
      some { s with page := { s.page with ws := some .OPEN }, down := [.hello ui_version] }
    else none
  | .closing =>
    if s.page.ws = none then none
    else some { s with page := { s.page with ws := some .CLOSING } }
  | .closed =>
    if s.page.ws = none then none
    else some { s with page := { s.page with ws := none, connected := false }, down := [] }
  | .receive now => s.receive now
  | .keydown key modified now => some (s.keydown now key modified)
  | .button_down now => some (s.button_down now)
  | .button_up => some s.cancel_hold
  | .frame now => some (s.hold_tick now)
  | .arrives i now =>
    s.up[i]?.map fun engaged =>
      { s with up := s.up.eraseIdx i }.call c float (⟨now, .set_estop engaged⟩ : Event K Client V)
  | .lost i => if i < s.up.length then some { s with up := s.up.eraseIdx i } else none
  | .snapshot now =>
    if s.page.ws = some .OPEN ∨ s.page.ws = some .CLOSING then
      match (s.server.bridge.snapshot c now).1 with
      | .error _ => none
      | .ok telemetry =>
        let message := PageMessage.state telemetry.estop s.log.length
        some ({ s with down := s.down ++ [message] }.call c float
          (⟨now, .snapshot⟩ : Event K Client V))
    else none
  | .call e => some (s.call c float e)

/-- The clock reading that a step takes on the server. -/
def server_time : LinkStep K Client V → Option K
  | .arrives _ now => some now
  | .snapshot now => some now
  | .call e => some e.now
  | _ => none

/-- The clock of the server does not go back. -/
def timely (step : LinkStep K Client V) (s : Link K Client) : Bool :=
  (server_time step).all fun now => decide (s.server.clock ≤ now)

def next (s : Link K Client) (step : LinkStep K Client V) (s' : Link K Client) : Prop :=
  s.timely step ∧ s.taken c float step = some s'

omit [FloorRing K] in
/-- A page that is loaded when the server starts at `t`. -/
def start (t : K) : Link K Client where
  server := Web.start c t

/-- The state after the steps, if all of them can be taken in this order. -/
def play (s : Link K Client) : List (LinkStep K Client V) → Option (Link K Client)
  | [] => some s
  | step :: steps =>
    if s.timely step then (s.taken c float step).bind fun s => s.play steps else none

theorem run_play {steps : List (LinkStep K Client V)} {s s' : Link K Client}
    (h : s.play c float steps = some s') : Run (next c float) s steps s' := by
  induction steps generalizing s with
  | nil =>
    cases h
    exact .nil
  | cons step steps ih =>
    rw [play, Option.ite_none_right_eq_some] at h
    obtain ⟨htimely, h⟩ := h
    obtain ⟨between, hstep, hrest⟩ := Option.bind_eq_some_iff.mp h
    exact (Run.single ⟨htimely, hstep⟩).append (ih hrest)

end Link

end IotRobot.Web
