import IotRobot.Lib.Runs
import IotRobot.Safe.System

/-!
# Callbacks of the hardware component and its lifecycle

Each callback takes what the upstream plugin's callback of the same name returns,
which is arbitrary, and the frames the upstream `write` sends, which are arbitrary
as well. `step` performs one event of a run; `next` restricts the runs to those in
which the lifecycle callbacks come in the order in which the hardware manager of
ros2_control calls them.
-/

namespace IotRobot.Safe

open Lib Can

set_option autoImplicit false

inductive CallbackReturn where
  | SUCCESS
  | FAILURE
  | ERROR
  deriving DecidableEq

inductive ReturnType where
  | OK
  | ERROR
  | DEACTIVATE
  deriving DecidableEq

def close_socket {K : Type} {n : Nat} (s : SafeSystem K n) : SafeSystem K n :=
  { s with socket := false }

variable {K : Type} [Field K] [LinearOrder K] {n : Nat} (c : Component K n) (env : Env)

/-- `opened` is the outcome of `open_socket`, which closes the old socket first. -/
def on_configure (opened : Bool) (upstream : CallbackReturn) (s : SafeSystem K n) :
    CallbackReturn × SafeSystem K n :=
  let s := { s with socket := opened }
  if opened = false then (.ERROR, s)
  else if upstream = .SUCCESS then (upstream, s)
  else (upstream, close_socket s)

/-- `active_ = false; if (!stopped_) stop_motors(...)`. -/
def stop_once (s : SafeSystem K n) : SafeSystem K n :=
  let s := { s with active := false }
  if s.stopped = false then stop_motors c env s else s

def on_cleanup (upstream : CallbackReturn) (s : SafeSystem K n) :
    CallbackReturn × SafeSystem K n :=
  (upstream, close_socket (stop_once c env s))

/-- Commands left over from before a deactivation or an error must not be sent again. -/
def Joint.forget (joint : Joint K) : Joint K :=
  { joint with
    command_position := .nan
    command_velocity := .nan
    command_effort := .nan
    over_effort := false
    releasing := false }

def on_activate (upstream : CallbackReturn) (s : SafeSystem K n) :
    CallbackReturn × SafeSystem K n :=
  if upstream ≠ .SUCCESS then (upstream, s)
  else
    let (ready, s) := wait_for_status c env kActivationWait s
    if ready = false then (.ERROR, s)
    else
      let s := { s with joints := fun i => (s.joints i).forget, stopped := false }
      let (zeroed, s) := zero_joints c env s
      if zeroed = false then (.ERROR, stop_motors c env s)
      else
        (.SUCCESS, { s with
          joints := fun i => { s.joints i with
            target :=
              if (c.joint i).position_commanded then measured_position (c.joint i) (s.joints i)
              else .nan }
          active := true })

def on_deactivate (upstream : CallbackReturn) (s : SafeSystem K n) :
    CallbackReturn × SafeSystem K n :=
  (upstream, stop_motors c env { s with active := false })

def on_shutdown (upstream : CallbackReturn) (s : SafeSystem K n) :
    CallbackReturn × SafeSystem K n :=
  (upstream, close_socket (stop_once c env s))

/-- SUCCESS moves the component to unconfigured, so nothing is commanded any more. -/
def on_error (s : SafeSystem K n) : CallbackReturn × SafeSystem K n :=
  (.SUCCESS, stop_once c env s)

/-- The destructor: last resort when the manager is torn down without deactivating. -/
def destroy (s : SafeSystem K n) : SafeSystem K n :=
  close_socket (if s.stopped = false then stop_motors c env s else s)

def has_prefix_in (names : List String) (start : String) : Bool :=
  names.any fun name => start.toList.isPrefixOf name.toList

/-- The upstream plugin clears its commands of every stopped joint; so do we. -/
def Joint.unclaim (joint : Joint K) : Joint K :=
  { joint with
    command_position := .nan
    command_velocity := .nan
    command_effort := .nan
    position_claimed := false }

/-- A controller starts with a joint, from where the joint is; a target of NaN (no
status yet) makes `write` retry. -/
def Joint.start (p : JointParams K) (claimed : Bool) (joint : Joint K) : Joint K :=
  { joint with
    releasing := false
    position_claimed := claimed
    target := if claimed then measured_position p joint else joint.target }

/-- The body of the loop of `perform_command_mode_switch`. -/
def switch_joint (start_interfaces stop_interfaces : List String) (s : SafeSystem K n)
    (i : Fin n) : SafeSystem K n :=
  let p := c.joint i
  let start := p.name ++ "/"
  let stopped := has_prefix_in stop_interfaces start
  let started := has_prefix_in start_interfaces start
  let joint := if stopped then (s.joints i).unclaim else s.joints i
  let (joint, s) :=
    if stopped && !started && s.active then
      let (t, s) := now env s
      ({ joint with releasing := true, release_at := t + c.brake_time * nsPerMs }, s)
    else (joint, s)
  let joint :=
    if started then joint.start p (start_interfaces.contains (start ++ HW_IF_POSITION))
    else joint
  { s with joints := Function.update s.joints i joint }

def perform_command_mode_switch (start_interfaces stop_interfaces : List String)
    (upstream : ReturnType) (s : SafeSystem K n) : ReturnType × SafeSystem K n :=
  if upstream ≠ .OK then (upstream, s)
  else
    (.OK, (List.finRange n).foldl (switch_joint c env start_interfaces stop_interfaces) s)

/-- The states exported to ros2_control, in the joint frame; `base` holds the
upstream states after its own `read`. -/
def export_states (base : Fin n → Interface → Dbl K) (s : SafeSystem K n) : SafeSystem K n :=
  { s with
    joints := fun i =>
      let base_state (interface : Interface) : Dbl K :=
        if (c.joint i).base_state interface then base i interface else .nan
      { s.joints i with
        state_position := (base_state .position).scale (c.joint i).direction
        state_velocity := (base_state .velocity).scale (c.joint i).direction
        state_effort := (base_state .effort).scale (c.joint i).direction
        state_temperature :=
          if (s.joints i).has_status then .fin ((s.joints i).temperature : K) else .nan } }

def read (upstream : ReturnType) (base : Fin n → Interface → Dbl K) (s : SafeSystem K n) :
    ReturnType × SafeSystem K n :=
  let (healthy, s) := motors_healthy c env s
  let s := export_states c base s
  if healthy = false then (.ERROR, stop_motors c env { s with active := false })
  else if s.active = false then (upstream, s)
  else
    let (ok, s) := efforts_ok c env s
    if ok = false then (.ERROR, stop_motors c env { s with active := false })
    else (upstream, s)

/-- `set_base_command` for a handle that the upstream plugin may not export. -/
def set_base_command (i : Fin n) (interface : Interface) (value : Dbl K) (s : SafeSystem K n) :
    SafeSystem K n :=
  if (c.joint i).base_command interface then
    { s with handed := s.handed ++ [⟨i, interface, value⟩] }
  else s

/-- The new target of a joint with a finite one: a NaN command holds it. -/
def slewed (p : JointParams K) (joint : Joint K) (target : Dbl K) (dt : K) : Dbl K :=
  if joint.command_position.isNaN then target
  else
    let wanted :=
      if p.has_position_limits then joint.command_position.clamp p.min_position p.max_position
      else joint.command_position
    let step := p.max_velocity * dt
    target + (wanted - target).clamp (.fin (-step)) (.fin step)

/-- The position part of the loop body of `write`: the joint's target and the
position for the upstream plugin, which skips NaN. -/
def position_command (p : JointParams K) (joint : Joint K) (dt : K) : Dbl K × Dbl K :=
  if joint.position_claimed = false then (joint.target, .nan)
  else
    let target := if joint.target.isNaN then measured_position p joint else joint.target
    if target.isNaN then (target, .nan)
    else
      let target := slewed p joint target dt
      (target, target.scale p.direction)

theorem position_command_unclaimed {p : JointParams K} {joint : Joint K}
    (h : joint.position_claimed = false) (dt : K) :
    position_command p joint dt = (joint.target, .nan) := if_pos h

def write_joint (dt : K) (t : Nat) (s : SafeSystem K n) (i : Fin n) : SafeSystem K n :=
  let p := c.joint i
  let s := if (s.joints i).releasing then continue_release c env t i s else s
  let s := set_base_command c i .velocity ((s.joints i).command_velocity.scale p.direction) s
  let s := set_base_command c i .effort ((s.joints i).command_effort.scale p.direction) s
  if p.position_commanded = false then s
  else
    let (target, position) := position_command p (s.joints i) dt
    set_base_command c i .position position
      { s with joints := Function.update s.joints i { s.joints i with target := target } }

/-- `dt` of one `write`. -/
def slew_period (period : K) : K := max 0 (min period kMaxSlewPeriod)

/-- `frames` are those the upstream plugin's `write` sends. -/
def write (period : K) (upstream : ReturnType) (frames : List CanFrame) (s : SafeSystem K n) :
    ReturnType × SafeSystem K n :=
  if s.active = false then (.OK, s)
  else
    let (t, s) := now env s
    let s := (List.finRange n).foldl (write_joint c env (slew_period period) t) s
    (upstream, { s with bus := s.bus ++ frames.map .upstream })

/-- A controller writes its command interfaces. -/
def set_command (i : Fin n) (position velocity effort : Dbl K) (s : SafeSystem K n) :
    SafeSystem K n :=
  { s with
    joints := Function.update s.joints i { s.joints i with
      command_position := position
      command_velocity := velocity
      command_effort := effort } }

inductive Event (K : Type) (n : Nat) where
  | on_configure (opened : Bool) (upstream : CallbackReturn)
  | on_cleanup (upstream : CallbackReturn)
  | on_activate (upstream : CallbackReturn)
  | on_deactivate (upstream : CallbackReturn)
  | on_shutdown (upstream : CallbackReturn)
  | on_error
  | perform_command_mode_switch (start_interfaces stop_interfaces : List String)
      (upstream : ReturnType)
  | set_command (i : Fin n) (position velocity effort : Dbl K)
  | read (upstream : ReturnType) (base : Fin n → Interface → Dbl K)
  | write (period : K) (upstream : ReturnType) (frames : List CanFrame)
  | destroy

inductive Result where
  | callback (r : CallbackReturn)
  | real_time (r : ReturnType)
  | none
  deriving DecidableEq

def step (e : Event K n) (s : SafeSystem K n) : Result × SafeSystem K n :=
  match e with
  | .on_configure opened upstream =>
    let (r, s) := on_configure opened upstream s
    (.callback r, s)
  | .on_cleanup upstream =>
    let (r, s) := on_cleanup c env upstream s
    (.callback r, s)
  | .on_activate upstream =>
    let (r, s) := on_activate c env upstream s
    (.callback r, s)
  | .on_deactivate upstream =>
    let (r, s) := on_deactivate c env upstream s
    (.callback r, s)
  | .on_shutdown upstream =>
    let (r, s) := on_shutdown c env upstream s
    (.callback r, s)
  | .on_error =>
    let (r, s) := on_error c env s
    (.callback r, s)
  | .perform_command_mode_switch start_interfaces stop_interfaces upstream =>
    let (r, s) := perform_command_mode_switch c env start_interfaces stop_interfaces upstream s
    (.real_time r, s)
  | .set_command i position velocity effort => (.none, set_command i position velocity effort s)
  | .read upstream base =>
    let (r, s) := read c env upstream base s
    (.real_time r, s)
  | .write period upstream frames =>
    let (r, s) := write c env period upstream frames s
    (.real_time r, s)
  | .destroy => (.none, destroy c env s)

/-- The lifecycle states of a hardware component. `errorProcessing` is the time
between a callback that failed and the `on_error` the manager then calls. -/
inductive Lifecycle where
  | unconfigured
  | inactive
  | active
  | errorProcessing
  | finalized
  | destroyed
  deriving DecidableEq

/-- In which lifecycle states the hardware manager may perform an event. The
real-time events are allowed until destruction, more often than it performs them. -/
def Legal (l : Lifecycle) : Event K n → Prop
  | .on_configure _ _ => l = .unconfigured
  | .on_cleanup _ => l = .inactive
  | .on_activate _ => l = .inactive
  | .on_deactivate _ => l = .active
  | .on_shutdown _ => l = .unconfigured ∨ l = .inactive ∨ l = .active
  | .on_error => l = .errorProcessing
  | _ => l ≠ .destroyed

/-- The lifecycle state after an event with this result: a transition that fails
goes back where the manager goes back, and to error processing otherwise. -/
def after (l : Lifecycle) : Event K n → Result → Lifecycle
  | .on_configure _ _, .callback .SUCCESS => .inactive
  | .on_configure _ _, .callback .FAILURE => .unconfigured
  | .on_cleanup _, .callback .SUCCESS => .unconfigured
  | .on_activate _, .callback .SUCCESS => .active
  | .on_activate _, .callback .FAILURE => .inactive
  | .on_deactivate _, .callback .SUCCESS => .inactive
  | .on_deactivate _, .callback .FAILURE => .active
  | .on_shutdown _, .callback .SUCCESS => .finalized
  | .on_error, .callback .SUCCESS => .unconfigured
  | .on_error, _ => .finalized
  | .destroy, _ => .destroyed
  | _, .callback _ => .errorProcessing
  | .read _ _, .real_time .ERROR | .write _ _ _, .real_time .ERROR =>
    match l with
    | .inactive | .active => .errorProcessing
    | l => l
  | _, _ => l

/-- The component and the lifecycle state it is in. -/
structure Managed (K : Type) (n : Nat) where
  system : SafeSystem K n := {}
  lifecycle : Lifecycle := .unconfigured

def perform (m : Managed K n) (e : Event K n) : Managed K n :=
  ⟨(step c env e m.system).2, after m.lifecycle e (step c env e m.system).1⟩

/-- One event of a lifecycle-legal run. -/
def next (m : Managed K n) (e : Event K n) (m' : Managed K n) : Prop :=
  Legal m.lifecycle e ∧ m' = perform c env m e

end IotRobot.Safe
