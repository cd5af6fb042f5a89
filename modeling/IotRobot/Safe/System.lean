import IotRobot.Lib.Loops
import IotRobot.Can.Frame
import IotRobot.Safe.Joint
import Mathlib.Data.List.FinRange
import Mathlib.Logic.Function.Basic
import Mathlib.Algebra.Order.Group.Unbundled.Abs

/-!
# The hardware component: socket, stop, status watchdog and zeroing

`SafeSystem` is the mutable part of `SafeCubeMarsSystemHardware` together with
cursors into an environment (`Env`) that answers every clock reading, every write
to the socket and every drain of the socket. Three lists record what happened so
far, oldest first: the frames attempted on the bus, the batches of status frames
drained, and the commands handed to the upstream plugin. No function reads them.
-/

namespace IotRobot.Safe

open Lib Can

set_option autoImplicit false

def kModeCurrent : Nat := 1
def kModeSpeed : Nat := 3
def kModeSetOrigin : Nat := 5
def kTemporaryOrigin : UInt8 := 0

/-- A frame as `recv` delivers it; `complete` says that a whole frame arrived. -/
structure RxFrame where
  complete : Bool
  can_id : Nat
  can_dlc : Nat
  data : Fin 8 → UInt8

/-- The fault code of a status frame. -/
def RxFrame.fault_code (frame : RxFrame) : UInt8 := frame.data 7

/-- The frames one `drain_status` finds, and whether `recv` then fails for
another reason than an empty socket or a signal. -/
structure Batch where
  frames : List RxFrame
  failed : Bool

/-- What the component meets. The clock passes every instant, which leaves out only
callbacks that never return. -/
structure Env where
  clock : SteadyClock Nat
  written : Nat → Bool
  batch : Nat → Batch

/-- A frame on the bus: one that the component attempts for a joint, or one that
the upstream plugin sends. -/
inductive Bus (n : Nat) where
  | own (joint : Fin n) (frame : CanFrame)
  | upstream (frame : CanFrame)
  deriving DecidableEq

structure Heard where
  now : Nat
  frames : List RxFrame

structure Handed (K : Type) (n : Nat) where
  joint : Fin n
  interface : Interface
  value : Dbl K

structure SafeSystem (K : Type) (n : Nat) where
  joints : Fin n → Joint K := fun _ => {}
  socket : Bool := false
  active : Bool := false
  stopped : Bool := true
  readings : Nat := 0
  writes : Nat := 0
  drains : Nat := 0
  bus : List (Bus n) := []
  heard : List Heard := []
  handed : List (Handed K n) := []

section Socket
variable {K : Type} {n : Nat}

/-- `Clock::now()`. -/
def now (env : Env) (s : SafeSystem K n) : Nat × SafeSystem K n :=
  (env.clock.reading s.readings, { s with readings := s.readings + 1 })

/-- `send` for a joint: attempts one frame and says whether the write succeeded. -/
def send (env : Env) (i : Fin n) (frame : CanFrame) (s : SafeSystem K n) :
    Bool × SafeSystem K n :=
  (s.socket && env.written s.writes,
    { s with writes := s.writes + 1, bus := s.bus ++ [.own i frame] })

def zero_speed (p : JointParams K) : CanFrame := int32_frame (kModeSpeed <<< 8 ||| p.can_id) 0

/-- Zero current releases the motor: it stops driving and turns freely. -/
def zero_current (p : JointParams K) : CanFrame := int32_frame (kModeCurrent <<< 8 ||| p.can_id) 0

def set_origin (p : JointParams K) : CanFrame :=
  ⟨kModeSetOrigin <<< 8 ||| p.can_id, [kTemporaryOrigin]⟩

/-- `for (const auto & joint : joints_)` around one `send`. -/
def send_each (env : Env) (frame : Fin n → CanFrame) (s : SafeSystem K n) : SafeSystem K n :=
  (List.finRange n).foldl (fun s i => (send env i (frame i) s).2) s

end Socket

variable {K : Type} [Field K] [LinearOrder K] {n : Nat} (c : Component K n) (env : Env)

/-- One round of the brake loop of `stop_motors`; it is left once another period
would end after `until_`. -/
def brake_round (until_ : Nat) (s : SafeSystem K n) : SafeSystem K n ⊕ SafeSystem K n :=
  let s := send_each env (fun i => zero_speed (c.joint i)) s
  let (t, s) := now env s
  if t + kBrakePeriod * nsPerMs > until_ then .inl s else .inr s

/-- Zero speed for `brake_time_`, then zero current. The rounds of the loop are
bounded by the reading at which the clock passes its end. -/
def stop_motors (s : SafeSystem K n) : SafeSystem K n :=
  let s := { s with
    stopped := true
    joints := fun i => { s.joints i with releasing := false } }
  if s.socket = false then s
  else
    let (t, s) := now env s
    let until_ := t + c.brake_time * nsPerMs
    let s := (loop (brake_round c env until_) (env.clock.reach until_ + 1) s).getD s
    send_each env (fun i => zero_current (c.joint i)) s

/-- One cycle of the non-blocking stop of a joint that no controller commands. -/
def continue_release (t : Nat) (i : Fin n) (s : SafeSystem K n) : SafeSystem K n :=
  if t < (s.joints i).release_at then
    (send env i (zero_speed (c.joint i)) s).2
  else
    let s := { s with joints := Function.update s.joints i { s.joints i with releasing := false } }
    (send env i (zero_current (c.joint i)) s).2

/-- What a status frame of the joint does to it. The flag is `heard[i]`: a fault
code seen anywhere in the batch counts, even if a later frame clears it. -/
def hear (t : Nat) (frame : RxFrame) (j : Joint K × Bool) : Joint K × Bool :=
  ({ j.1 with
      has_status := true
      last_status := t
      raw_position := int16 (frame.data 0) (frame.data 1)
      raw_current := int16 (frame.data 4) (frame.data 5)
      temperature := int8 (frame.data 6)
      fault := if frame.fault_code ≠ 0 ∨ j.2 = false then frame.fault_code else j.1.fault }, true)

/-- The frame passes the length checks and carries the joint's ID. -/
def RxFrame.of (frame : RxFrame) (p : JointParams K) : Bool :=
  frame.complete && !(frame.can_dlc < 8) && p.can_id == (frame.can_id &&& 0xFF)

def absorb (t : Nat) (joints : Fin n → Joint K × Bool) (frame : RxFrame) :
    Fin n → Joint K × Bool :=
  fun i => if frame.of (c.joint i) then hear t frame (joints i) else joints i

def drain_status (s : SafeSystem K n) : Bool × SafeSystem K n :=
  if s.socket = false then (true, s)
  else
    let (t, s) := now env s
    let batch := env.batch s.drains
    let joints := batch.frames.foldl (absorb c t) (fun i => (s.joints i, false))
    let s := { s with
      drains := s.drains + 1
      heard := s.heard ++ [⟨t, batch.frames⟩]
      joints := fun i => (joints i).1 }
    (!(batch.failed && s.active), s)

def motors_healthy (s : SafeSystem K n) : Bool × SafeSystem K n :=
  if s.socket = false then (!s.active, s)
  else
    let (drained, s) := drain_status c env s
    if drained = false then (false, s)
    else if s.active = false then (true, s)
    else
      let (t, s) := now env s
      ((List.finRange n).all fun i =>
        (s.joints i).fault == 0 &&
          !((t - (s.joints i).last_status) / nsPerMs > c.status_timeout), s)

/-- |current| in newton metres, with the upstream plugin's conversion. -/
def effort (p : JointParams K) (joint : Joint K) : K :=
  |joint.raw_current * (1 / 100) * p.kt * p.gear_ratio|

/-- The body of the loop of `efforts_ok`; `none` is the early return. -/
def check_effort (t : Nat) (p : JointParams K) (joint : Joint K) : Option (Joint K) :=
  if p.stall_effort ≤ 0 ∨ joint.has_status = false then some joint
  else if effort p joint ≤ p.stall_effort then some { joint with over_effort := false }
  else if joint.over_effort = false then
    some { joint with over_effort := true, over_effort_since := t }
  else if (t - joint.over_effort_since) / nsPerMs ≥ p.stall_time then none
  else some joint

def check_efforts (t : Nat) : List (Fin n) → (Fin n → Joint K) → Bool × (Fin n → Joint K)
  | [], joints => (true, joints)
  | i :: rest, joints =>
    match check_effort t (c.joint i) (joints i) with
    | none => (false, joints)
    | some joint => check_efforts t rest (Function.update joints i joint)

def efforts_ok (s : SafeSystem K n) : Bool × SafeSystem K n :=
  let (t, s) := now env s
  let (ok, joints) := check_efforts c t (List.finRange n) s.joints
  (ok, { s with joints := joints })

/-- The lambda `recent` of `wait_for_status`; it looks at the clock only for a
joint that has been heard. -/
def recent (i : Fin n) (s : SafeSystem K n) : Bool × SafeSystem K n :=
  if (s.joints i).has_status then
    let (t, s) := now env s
    (decide (t - (s.joints i).last_status ≤ c.status_timeout * nsPerMs), s)
  else (false, s)

/-- `std::all_of` with `recent`, up to the first joint that is not. -/
def all_recent : List (Fin n) → SafeSystem K n → Bool × SafeSystem K n
  | [], s => (true, s)
  | i :: rest, s =>
    let (ok, s) := recent c env i s
    if ok then all_recent rest s else (false, s)

def wait_round (deadline : Nat) (s : SafeSystem K n) : (Bool × SafeSystem K n) ⊕ SafeSystem K n :=
  let (drained, s) := drain_status c env s
  if drained = false then .inl (false, s)
  else
    let (ok, s) := all_recent c env (List.finRange n) s
    if ok then .inl (true, s)
    else
      let (t, s) := now env s
      if t ≥ deadline then .inl (true, s) else .inr s

/-- The second loop of `wait_for_status`: every joint recent and without a fault. -/
def check_status : List (Fin n) → Bool → SafeSystem K n → Bool × SafeSystem K n
  | [], ok, s => (ok, s)
  | i :: rest, ok, s =>
    let (r, s) := recent c env i s
    check_status rest (ok && r && (s.joints i).fault == 0) s

def wait_for_status (timeout : Nat) (s : SafeSystem K n) : Bool × SafeSystem K n :=
  let (t, s) := now env s
  let deadline := t + timeout * nsPerMs
  match loop (wait_round c env deadline) (env.clock.reach deadline + 1) s with
  | some (true, s) => check_status c env (List.finRange n) true s
  | some (false, s) => (false, s)
  | none => (false, s)

/-- The first loop of `zero_joints`, with the instants `sent`. -/
def send_origins : List (Fin n) → (Fin n → Nat) → SafeSystem K n →
    Bool × (Fin n → Nat) × SafeSystem K n
  | [], sent, s => (true, sent, s)
  | i :: rest, sent, s =>
    if (c.joint i).zero_on_activate then
      let (released, s) := send env i (zero_current (c.joint i)) s
      let (zeroed, s) := send env i (set_origin (c.joint i)) s
      if released = false ∨ zeroed = false then (false, sent, s)
      else
        let (t, s) := now env s
        send_origins rest (Function.update sent i t) s
    else send_origins rest sent s

/-- The lambda `zeroed` of `zero_joints`. -/
def zeroed (sent : Fin n → Nat) (s : SafeSystem K n) (i : Fin n) : Bool :=
  !(c.joint i).zero_on_activate ||
    (decide ((s.joints i).last_status > sent i) &&
      decide (|((s.joints i).raw_position : K) * kDegPerCount| ≤ kZeroToleranceDeg))

def zero_round (sent : Fin n → Nat) (deadline : Nat) (s : SafeSystem K n) :
    (Bool × SafeSystem K n) ⊕ SafeSystem K n :=
  let (drained, s) := drain_status c env s
  if drained = false then .inl (false, s)
  else if (List.finRange n).all (zeroed c sent s) then .inl (true, s)
  else
    let (t, s) := now env s
    if t ≥ deadline then .inl (false, s) else .inr s

def zero_joints (s : SafeSystem K n) : Bool × SafeSystem K n :=
  let (drained, s) := drain_status c env s
  if drained = false then (false, s)
  else
    let (ok, sent, s) := send_origins c env (List.finRange n) (fun _ => 0) s
    if ok = false then (false, s)
    else if (List.finRange n).all (fun i => !(c.joint i).zero_on_activate) then (true, s)
    else
      let (t, s) := now env s
      let deadline := t + kActivationWait * nsPerMs
      (loop (zero_round c env sent deadline) (env.clock.reach deadline + 1) s).getD (false, s)

end IotRobot.Safe
