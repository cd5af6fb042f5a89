import IotRobot.Web.Effects

/-!
# The video stream

`FrameHub` with the handlers of `/stream.mjpg`, over the bridge that receives the images. A
coroutine runs without a break from one `await` to the next, so each such stretch is one step;
the calls of the bridge, from either thread, fall anywhere between them. The steps carry what the
outside decides: what an encoding brings, when a wait times out, when a viewer is gone.
-/

namespace IotRobot.Web

open Lib

set_option autoImplicit false

/-- An image that the bridge accepted: its `image_seq`, and the topic that it came from. Its JPEG
is written as the image itself. -/
structure CameraImage where
  seq : Nat
  topic : String
  deriving DecidableEq

/-- The `await` at which a task of `FrameHub.run` stands; one that has not started stands at
`sleep`. -/
inductive RunAwait where
  | sleep
  | encode (image : CameraImage)
  | condition (image : CameraImage)

/-- The image that a task works on. -/
def RunAwait.image : RunAwait → Option CameraImage
  | .sleep => none
  | .encode image => some image
  | .condition image => some image

structure RunTask where
  id : Nat
  encoded : Option Nat := none
  await : RunAwait := .sleep

inductive StreamAwait where
  | next_frame
  | write
  deriving DecidableEq

/-- A handler of `/stream.mjpg`. `seen` is `none` for -1, and `await` once it has returned.
`written` lists what it wrote, oldest first; no function reads it. -/
structure Stream where
  seen : Option Nat := none
  await : Option StreamAwait := some .next_frame
  written : List CameraImage := []

structure FrameHub where
  viewers : Int := 0
  jpeg : Option CameraImage := none
  seq : Nat := 0
  task : Option Nat := none
  closed : Bool := false

/-- The bridge with its latest image, the hub, its tasks that still run and the handlers. -/
structure Video (K Client : Type) where
  node : Node K Client
  image : Option CameraImage := none
  image_seq : Nat := 0
  hub : FrameHub := {}
  created : Nat := 0
  runs : List RunTask := []
  streams : List Stream := []

/-- How `encode` ends. A frame that cannot be converted or encoded gives no JPEG; OpenCV may
raise, which ends the task. -/
inductive Encoding where
  | jpeg
  | none
  | raised
  deriving DecidableEq

inductive VideoStep (K Client V : Type) where
  | call (e : Event K Client V)
  | switch (mode : Mode)
  | stream
  | next_frame (i : Nat) (timeout gone : Bool)
  | write (i : Nat) (ok : Bool)
  | leave (i : Nat)
  | run (i : Nat) (encoding : Encoding)
  | close
  | close_task

/-- The calls that only the modes and the hub make. -/
def Op.steers_video {K Client V : Type} : Op K Client V → Bool
  | .set_mode _ | .set_streaming _ => true
  | _ => false

/-- The head of the loop of a handler. -/
def Stream.loop (hub : FrameHub) (s : Stream) : Stream :=
  { s with await := if hub.closed then none else some .next_frame }

/-- What `next_frame` returns, if it does now. -/
def FrameHub.next_frame (seen : Option Nat) (timeout : Bool) (hub : FrameHub) :
    Option (Option CameraImage × Option Nat) :=
  if timeout then some (none, seen)
  else if some hub.seq ≠ seen ∨ hub.closed then some (hub.jpeg, some hub.seq)
  else none

/-- The handler once `next_frame` returns. -/
def Stream.proceed (hub : FrameHub) (timeout gone : Bool) (s : Stream) : Option Stream :=
  if s.await = some .next_frame then
    (hub.next_frame s.seen timeout).map fun (jpeg, seen) =>
      let s := { s with seen := seen }
      if gone then { s with await := none }
      else
        match jpeg with
        | none => s.loop hub
        | some image => { s with await := some .write, written := s.written ++ [image] }
  else none

/-- The handler once `write` returns or raises a `ConnectionError`. -/
def Stream.wrote (hub : FrameHub) (ok : Bool) (s : Stream) : Option Stream :=
  if s.await = some .write then
    some (if ok then s.loop hub else { s with await := none })
  else none

/-- A handler that is cancelled, or whose `write` raises anything else. -/
def Stream.leave (s : Stream) : Option Stream :=
  if s.await = none then none else some { s with await := none }

namespace Video

section Hub
variable {K Client : Type} [Field K] (c : Parameters K)

def set_streaming (streaming : Bool) (s : Video K Client) : Video K Client :=
  { s with
    node := { s.node with bridge := s.node.bridge.set_streaming c streaming }
    image := if streaming then s.image else none }

omit [Field K] in
/-- A cancelled task runs no further: at its next step it raises. -/
def cancel (task : Option Nat) (s : Video K Client) : Video K Client :=
  { s with runs := s.runs.filter fun run => some run.id ≠ task }

def add_viewer (s : Video K Client) : Video K Client :=
  let s := { s with hub := { s.hub with viewers := s.hub.viewers + 1 } }
  if s.hub.viewers = 1 then
    let s := s.set_streaming c true
    { s with
      hub := { s.hub with task := some s.created }
      runs := s.runs ++ [{ id := s.created }]
      created := s.created + 1 }
  else s

def remove_viewer (s : Video K Client) : Video K Client :=
  let s := { s with hub := { s.hub with viewers := s.hub.viewers - 1 } }
  if s.hub.viewers = 0 then
    let s := (s.set_streaming c false).cancel s.hub.task
    { s with hub := { s.hub with jpeg := none } }
  else s

/-- The handler `i` goes on as `stream`, or returns. -/
def settle (i : Nat) (stream : Stream) (s : Video K Client) : Video K Client :=
  let s := { s with streams := s.streams.set i stream }
  if stream.await = none then s.remove_viewer c else s

/-- A request for `/stream.mjpg`. -/
def stream (s : Video K Client) : Video K Client :=
  let s := s.add_viewer c
  let i := s.streams.length
  let stream : Stream := {}
  { s with streams := s.streams ++ [stream] }.settle c i (stream.loop s.hub)

def set_mode (mode : Mode) (s : Video K Client) : Video K Client :=
  { s with node := { s.node with bridge := s.node.bridge.set_mode c mode }, image := none }

/-- What a change of the mode does to the video: `hub.reset` and `bridge.set_mode`. -/
def switch (mode : Mode) (s : Video K Client) : Video K Client :=
  { s with hub := { s.hub with jpeg := none } }.set_mode c mode

omit [Field K] in
/-- The next stretch of a task of `FrameHub.run`. -/
def run (i : Nat) (encoding : Encoding) (s : Video K Client) : Option (Video K Client) :=
  s.runs[i]?.map fun run =>
    match run.await with
    | .sleep =>
      match s.image with
      | some image =>
        if some s.image_seq ≠ run.encoded then
          let run := { run with encoded := some s.image_seq, await := .encode image }
          { s with runs := s.runs.set i run }
        else s
      | none => s
    | .encode image =>
      match encoding with
      | .jpeg => { s with runs := s.runs.set i { run with await := .condition image } }
      | .none => { s with runs := s.runs.set i { run with await := .sleep } }
      | .raised => { s with runs := s.runs.eraseIdx i }
    | .condition image =>
      { s with
        hub := { s.hub with jpeg := some image, seq := s.hub.seq + 1 }
        runs := s.runs.set i { run with await := .sleep } }

end Hub

variable {K Client V : Type} [Field K] [LinearOrder K] [FloorRing K] [DecidableEq Client]
variable (c : Parameters K) (float : V → FloatResult K)

/-- The topic of an image that `on_image` accepts. -/
def accepted {K Client : Type} (s : RobotBridge K Client) : Option String :=
  if s.image_sub = none ∨ s.image_sub ≠ s.image_topic then none else s.image_sub

/-- The image that a call brings. -/
def received (e : Event K Client V) (s : Video K Client) : Option CameraImage :=
  match e.op with
  | .on_image => (accepted s.node.bridge).map fun topic => ⟨s.image_seq + 1, topic⟩
  | _ => none

def call (e : Event K Client V) (s : Video K Client) : Video K Client :=
  let s' := { s with node := ⟨e.now, perform c float e s.node.bridge⟩ }
  match s.received e with
  | some image => { s' with image := some image, image_seq := s.image_seq + 1 }
  | none => s'

/-- The state after a step, if the step can be taken. -/
def taken (step : VideoStep K Client V) (s : Video K Client) : Option (Video K Client) :=
  match step with
  | .call e =>
    if e.op.steers_video = false ∧ s.node.clock ≤ e.now then some (s.call c float e) else none
  | .switch mode => some (s.switch c mode)
  | .stream => some (s.stream c)
  | .next_frame i timeout gone =>
    s.streams[i]?.bind fun stream => (stream.proceed s.hub timeout gone).map (s.settle c i ·)
  | .write i ok =>
    s.streams[i]?.bind fun stream => (stream.wrote s.hub ok).map (s.settle c i ·)
  | .leave i => s.streams[i]?.bind fun stream => stream.leave.map (s.settle c i ·)
  | .run i encoding => s.run i encoding
  | .close => some { s with hub := { s.hub with closed := true } }
  | .close_task => if s.hub.closed then some (s.cancel s.hub.task) else none

def next (s : Video K Client) (step : VideoStep K Client V) (s' : Video K Client) : Prop :=
  s.taken c float step = some s'

omit [FloorRing K] in
/-- The server when the bridge's `__init__` returned at `t`. -/
def start (t : K) : Video K Client where
  node := Web.start c t

end Video

end IotRobot.Web
