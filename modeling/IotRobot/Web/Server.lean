import IotRobot.Web.Driver
import IotRobot.Web.Runs
import Mathlib.Data.List.Infix

/-!
# The modes of the web server

`WebServer` with its `change_mode` tasks and the `ros2 launch` that it runs in a follow
mode. A task runs without a break from one `await` to the next, so each such stretch is one
step; between two steps anything else may happen: other tasks and messages, the ROS thread,
telemetry, and processes that start others, end or are noticed to have ended. The steps
carry what the outside decides, such as whether a start succeeds.
-/

namespace IotRobot.Web

open Lib

set_option autoImplicit false

def NOT_YOUR_TURN : String := "Someone else is driving. Wait until they let go."

/-- One `ros2 launch` in a process group of its own: whether the launch process is alive,
how many other processes of the group are, and the exit code once asyncio has noticed. -/
structure Launch where
  argv : List String
  leader : Bool := true
  nodes : Nat := 0
  returncode : Option Int := none

namespace Launch

/-- Some process of the group is alive. -/
def alive (l : Launch) : Bool := l.leader || decide (0 < l.nodes)

/-- After SIGKILL to the group. -/
def killed (l : Launch) : Launch := { l with leader := false, nodes := 0 }

/-- What processes do by themselves. -/
inductive Change where
  | forks
  | launch_exits
  | node_exits
  | reaped (code : Int)

/-- A process that ends leaves the others of its group behind. -/
def after (l : Launch) : Change → Option Launch
  | .forks => if l.alive then some { l with nodes := l.nodes + 1 } else none
  | .launch_exits => if l.leader then some { l with leader := false } else none
  | .node_exits => if 0 < l.nodes then some { l with nodes := l.nodes - 1 } else none
  | .reaped code =>
    if l.leader = false ∧ l.returncode = none then some { l with returncode := some code } else none

end Launch

/-- `FollowProcess`; `process` is the index of its launch, `output` its last 40 lines. -/
structure FollowProcess where
  argv : List String
  process : Option Nat := none
  output : List String := []

def FollowProcess.last_line (follow : FollowProcess) : String := follow.output.getLast?.getD ""

/-- A line that `_read_output` reads. -/
def FollowProcess.add_line (follow : FollowProcess) (line : String) : FollowProcess :=
  if line = "" then follow
  else { follow with output := (follow.output ++ [line]).drop (follow.output.length + 1 - 40) }

/-- What `create_subprocess_exec` does at once. A start that fails leaves no process. -/
inductive Start where
  | forked
  | os_error (error : String)
  | raised

/-- What the waiting for the reader brings: it ends, or takes too long, or raises the error
of the reader, for example after a line beyond its limit. -/
inductive ReaderEnd where
  | ended
  | raised

inductive ModeStatus where
  | ready
  | starting
  | running
  | stopping
  | failed
  deriving DecidableEq

/-- The parameters of the launches. -/
structure LaunchParameters where
  ros2 : String
  launch_package : String
  launch_files : Mode → String
  use_sim_time : Bool

def LaunchParameters.argv (l : LaunchParameters) (mode : Mode) : List String :=
  [l.ros2, "launch", l.launch_package, l.launch_files mode,
    "use_sim_time:=" ++ if l.use_sim_time then "true" else "false"]

/-- A `change_mode` task that has not started; the mode is `none` for a value that is not
one of `MODES`. -/
structure Request (Client : Type) where
  client : Client
  mode : Option Mode

/-- A task that passed its check; `checked` is the length that the log of the driver lock
had then. No function reads it. -/
structure Switch (Client : Type) where
  client : Client
  mode : Mode
  checked : Nat

/-- The `await` at which the task that holds `mode_lock` stands: for the launch to obey
SIGINT, for the killed launch process, for the reader, or for the start of a launch. -/
inductive Await where
  | interrupting
  | reaping
  | draining
  | starting (process : Nat)

/-- The server, its bridge, its tasks and every launch that it started. `log` lists the
granted requests and the releases of the driver lock, oldest first; no function reads it. -/
structure WebServer (K Client : Type) where
  clock : K
  bridge : RobotBridge K Client
  mode : Mode := .DRIVE
  mode_status : ModeStatus := .ready
  mode_detail : String := ""
  mode_since : K
  follow : Option FollowProcess := none
  launches : List Launch := []
  spawned : List (Request Client) := []
  waiting : List (Switch Client) := []
  mode_lock : Option (Switch Client × Await) := none
  notices : List (Client × String) := []
  log : List (LockEvent K Client) := []

inductive ClientMessage (V : Type) where
  | drive (linear angular speed : V)
  | release
  | estop (engaged : Bool)
  | gizmo (yaw pitch : V)
  | mode (mode : Option Mode)

/-- A step of the server or of what surrounds it. `call` is a call of the bridge from the
ROS thread or from another part of the web thread. -/
inductive Step (K Client V : Type) where
  | message (client : Client) (message : ClientMessage V)
  | disconnect (client : Client)
  | call (op : Op K Client V)
  | telemetry
  | begin_task (i : Nat) (start : Start)
  | acquire (start : Start)
  | resume (start : Start) (reader : ReaderEnd)
  | process (i : Nat) (change : Launch.Change)
  | line (text : String)

structure ServerEvent (K Client V : Type) where
  now : K
  step : Step K Client V

/-- Only `change_mode` sets the mode of the bridge. -/
def Op.sets_mode {K Client V : Type} : Op K Client V → Bool
  | .set_mode _ => true
  | _ => false

namespace WebServer

section Launches
variable {K Client : Type}

/-- `process.returncode` of a `FollowProcess`. -/
def returncode (follow : FollowProcess) (s : WebServer K Client) : Option Int :=
  follow.process.bind fun i => s.launches[i]?.bind fun launch => launch.returncode

/-- SIGKILL to the group of the launch, if there is one. -/
def kill (follow : FollowProcess) (s : WebServer K Client) : WebServer K Client :=
  match follow.process with
  | none => s
  | some i => { s with launches := s.launches.modify i Launch.killed }

/-- `follow_status`, which returns the two fields as it leaves them. -/
def follow_status (follower_ready detector_ready : Bool) (s : WebServer K Client) :
    WebServer K Client :=
  if s.mode = .DRIVE ∨ s.mode_status = .stopping ∨ s.mode_status = .failed then s
  else
    match s.follow with
    | none => s
    | some follow =>
      if follow.process = none then s
      else
        match s.returncode follow with
        | some code =>
          { s with
            mode_status := .failed
            mode_detail := if follow.last_line ≠ "" then follow.last_line
              else s!"The follow launch exited with code {code}" }
        | none =>
          if follower_ready ∧ (s.mode ≠ .PERSON ∨ detector_ready) then
            { s with mode_status := .running }
          else s

/-- `FollowProcess.stop` once the launch exited or ignored SIGINT: kill the group, then
wait for the launch process. -/
def kill_launch (task : Switch Client) (follow : FollowProcess) (s : WebServer K Client) :
    WebServer K Client :=
  let s := s.kill follow
  match s.returncode follow with
  | none => { s with mode_lock := some (task, .reaping) }
  | some _ => { s with mode_lock := some (task, .draining) }

end Launches

variable {K Client V : Type} [Field K] [LinearOrder K] [DecidableEq Client]
variable (c : Parameters K) (l : LaunchParameters) (float : V → FloatResult K) (now : K)

/-- `change_mode` after `stop_follow`, up to the start of the launch. -/
def assign_mode (start : Start) (task : Switch Client) (s : WebServer K Client) :
    WebServer K Client :=
  let s := { s with
    mode := task.mode
    mode_since := now
    bridge := s.bridge.set_mode c task.mode
    mode_detail := "" }
  if task.mode = .DRIVE then { s with mode_status := .ready, mode_lock := none }
  else
    let s := { s with follow := some { argv := l.argv task.mode }, mode_status := .starting }
    match start with
    | .forked =>
      { s with
        launches := s.launches ++ [{ argv := l.argv task.mode }]
        mode_lock := some (task, .starting s.launches.length) }
    | .os_error error =>
      { s with
        mode_status := .failed
        mode_detail := "Could not start ros2 launch: " ++ error
        mode_lock := none }
    | .raised => { s with mode_lock := none }

/-- `change_mode` with `mode_lock` held. SIGINT only asks the launch to exit. -/
def switch_mode (start : Start) (task : Switch Client) (s : WebServer K Client) :
    WebServer K Client :=
  -- choosing a failed mode again retries it
  if task.mode = s.mode ∧ s.mode_status ≠ .failed then { s with mode_lock := none }
  else
    match s.follow with
    | none => s.assign_mode c l now start task
    | some follow =>
      let s := { s with mode_status := .stopping }
      if follow.process = none then { s with follow := none }.assign_mode c l now start task
      else
        match s.returncode follow with
        | none => { s with mode_lock := some (task, .interrupting) }
        | some _ => s.kill_launch task follow

/-- A spawned task up to its first `await`. `asyncio.Lock` is fair: a task gets it at once
only while nobody waits for it. -/
def begin_task (start : Start) (request : Request Client) (s : WebServer K Client) :
    WebServer K Client :=
  match request.mode with
  | none => s
  | some mode =>
    let (allowed, bridge) := s.bridge.may_control now request.client
    let s := { s with bridge := bridge }
    if allowed = false then { s with notices := s.notices ++ [(request.client, NOT_YOUR_TURN)] }
    else
      let task := ⟨request.client, mode, s.log.length⟩
      match s.mode_lock, s.waiting with
      | none, [] => s.switch_mode c l now start task
      | _, _ => { s with waiting := s.waiting ++ [task] }

/-- The task that holds `mode_lock` goes on, if what it waits for is there. -/
def resume (start : Start) (reader : ReaderEnd) (s : WebServer K Client) :
    Option (WebServer K Client) :=
  match s.mode_lock, s.follow with
  | some (task, .interrupting), some follow => some (s.kill_launch task follow)
  | some (task, .reaping), some follow =>
    if s.returncode follow = none then none
    else some { s with mode_lock := some (task, .draining) }
  | some (task, .draining), _ =>
    match reader with
    | .ended => some ({ s with follow := none }.assign_mode c l now start task)
    | .raised => some { s with mode_lock := none }
  | some (_, .starting i), some follow =>
    some { s with follow := some { follow with process := some i }, mode_lock := none }
  | _, _ => none

/-- What a call of the bridge means to the driver lock. -/
def lock_events (e : Event K Client V) (s : RobotBridge K Client) : List (LockEvent K Client) :=
  match e.op with
  | .drive client _ _ _ =>
    if s.estop = false ∧ (s.driver_lock.request client e.now).1 then [.granted client e.now]
    else []
  | .aim_gizmo client _ _ =>
    if s.mode = .DRIVE ∧ s.estop = false ∧ (s.driver_lock.request client e.now).1 then
      [.granted client e.now]
    else []
  | .release client disconnected =>
    if disconnected ∧ (s.driver_lock.holder e.now).1 = some client then [.released client] else []
  | _ => []

variable [FloorRing K]

def call (op : Op K Client V) (s : WebServer K Client) : WebServer K Client :=
  { s with
    bridge := perform c float ⟨now, op⟩ s.bridge
    log := s.log ++ lock_events ⟨now, op⟩ s.bridge }

/-- `handle`, for the messages that reach the bridge or switch the mode. -/
def handle (client : Client) (message : ClientMessage V) (s : WebServer K Client) :
    WebServer K Client :=
  match message with
  | .drive linear angular speed => s.call c float now (.drive client linear angular speed)
  | .release => s.call c float now (.release client false)
  | .estop engaged => s.call c float now (.set_estop engaged)
  | .gizmo yaw pitch =>
    let t := s.call c float now (.aim_gizmo client yaw pitch)
    match (s.bridge.aim_gizmo c float now client yaw pitch).1 with
    | .ok (some refused) => { t with notices := t.notices ++ [(client, refused.text)] }
    | _ => t
  | .mode mode => { s with spawned := s.spawned ++ [⟨client, mode⟩] }

/-- One round of the telemetry task. -/
def telemetry (s : WebServer K Client) : WebServer K Client :=
  let (snapshot, bridge) := s.bridge.snapshot c now
  let s := { s with bridge := bridge }
  match snapshot with
  | .error _ => s
  | .ok snapshot => s.follow_status snapshot.follower_ready snapshot.detector_ready

/-- The state after a step, if the step can be taken. -/
def taken (step : Step K Client V) (s : WebServer K Client) : Option (WebServer K Client) :=
  match step with
  | .message client message => some (s.handle c float now client message)
  | .disconnect client => some (s.call c float now (.release client true))
  | .call op => if op.sets_mode then none else some (s.call c float now op)
  | .telemetry => some (s.telemetry c now)
  | .begin_task i start =>
    s.spawned[i]?.map fun request =>
      { s with spawned := s.spawned.eraseIdx i }.begin_task c l now start request
  | .acquire start =>
    match s.mode_lock, s.waiting with
    | none, task :: waiting => some ({ s with waiting := waiting }.switch_mode c l now start task)
    | _, _ => none
  | .resume start reader => s.resume c l now start reader
  | .process i change =>
    s.launches[i]?.bind fun launch =>
      (launch.after change).map fun launch => { s with launches := s.launches.set i launch }
  | .line text =>
    match s.follow with
    | none => none
    | some follow =>
      if follow.process = none then none
      else some { s with follow := some (follow.add_line text) }

/-- One step, at a reading of the clock that is not before the last one. -/
def next (s : WebServer K Client) (e : ServerEvent K Client V) (s' : WebServer K Client) : Prop :=
  s.clock ≤ e.now ∧ { s with clock := e.now }.taken c l float e.now e.step = some s'

omit [FloorRing K] in
/-- The server when it starts at `t`. -/
def start (t : K) : WebServer K Client where
  clock := t
  bridge := RobotBridge.init c t
  mode_since := t

/-- The state after the steps, if all of them can be taken in this order. -/
def play (s : WebServer K Client) : List (ServerEvent K Client V) → Option (WebServer K Client)
  | [] => some s
  | e :: es =>
    if s.clock ≤ e.now then
      ({ s with clock := e.now }.taken c l float e.now e.step).bind fun s => s.play es
    else none

theorem run_play {es : List (ServerEvent K Client V)} {s s' : WebServer K Client}
    (h : s.play c l float es = some s') : Run (next c l float) s es s' := by
  induction es generalizing s with
  | nil =>
    cases h
    exact .nil
  | cons e es ih =>
    rw [play, Option.ite_none_right_eq_some] at h
    obtain ⟨hclock, h⟩ := h
    obtain ⟨between, hstep, hrest⟩ := Option.bind_eq_some_iff.mp h
    exact (Run.single ⟨hclock, hstep⟩).append (ih hrest)

end WebServer

end IotRobot.Web
