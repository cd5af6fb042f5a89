import IotRobot.Lib.Dbl
import IotRobot.Lib.Dict
import IotRobot.Lib.Loops
import IotRobot.Lib.Programs
import IotRobot.Lib.Rounding
import IotRobot.Can.Frame
import Mathlib.Data.Rat.Floor

/-!
# The servo protocol and the CAN socket of the Python tools

`Bus` is what a program meets outside: a steady clock, system calls that may
fail, and what each receive brings. `Session` is where a run of the program
stands in it; its `trace` lists, oldest first, the speeds the program decides
on, the frames it hands to the socket and the frames it receives. The socket
may refuse a frame, in which case the program sees an `OSError`.
-/

namespace IotRobot.Can

open Lib Prog

set_option autoImplicit false

def MODE_CURRENT : Nat := 1
def MODE_SPEED : Nat := 3
def STATUS : Nat := 0x29

/-- Servo command modes 0 to 6. -/
def COMMAND_MODES : List Nat := List.range 7

def ERRORS : Dict Nat String :=
  [(0, "no fault"), (1, "motor over-temperature"), (2, "over-current"), (3, "over-voltage"),
    (4, "under-voltage"), (5, "encoder fault"), (6, "MOSFET over-temperature"),
    (7, "motor stall")]

def MAX_ERPM : Int := 100000
def POLE_PAIRS : Int := 14
def GEAR_RATIO : Int := 10

def ARPHRD_CAN : Nat := 280
def IFF_UP : Nat := 1

/-- Why `cubemars_tool` stops a move: the data its messages show. -/
inductive StopMessage (K : Type) where
  | fault (error_text : String)
  | over_current (current_a : K) (max_current : Dbl K)
  | not_following (measured : K) (commanded : Dbl K)
  deriving DecidableEq

structure MotorStopped (K : Type) where
  message : StopMessage K
  release_only : Bool := false
  deriving DecidableEq

/-- The classes of exceptions that a run can raise; `other` is one of a third-party
package that none of the others covers. A `UnicodeDecodeError` and a
`MotorConfigError` are both `ValueError`s in Python, but no handler catches that class. -/
inductive Exception (K : Type) where
  | os_error
  | keyboard_interrupt
  | value_error (message : String)
  | overflow_error
  | zero_division_error
  | type_error
  | unicode_decode_error
  | other
  | can_check_error (message : String)
  | motor_config_error (message : String)
  | motor_stopped (err : MotorStopped K)
  deriving DecidableEq

section Frames
variable {K : Type} [Field K]

/-- Electrical RPM of the motor per rad/s at the gearbox output. -/
def erpm_per_rad_s (pole_pairs gear_ratio : Int) : K :=
  (pole_pairs * gear_ratio : Int) * 60.0 / (2.0 * pi_double)

structure Status (K : Type) where
  can_id : Nat
  position_deg : K
  speed_erpm : K
  current_a : K
  temperature_c : Int
  error : UInt8

def Status.error_text (status : Status K) : String :=
  (ERRORS.get status.error.toNat).getD s!"unknown fault {status.error.toNat}"

/-- A servo-mode status frame; `none` for any other frame. -/
def decode_status (frame : CanFrame) : Option (Status K) :=
  match frame.data with
  | p1 :: p0 :: s1 :: s0 :: c1 :: c0 :: temperature :: error :: _ =>
    if frame.id >>> 8 ≠ STATUS then none
    else some
      { can_id := frame.id &&& 0xFF
        position_deg := int16 p1 p0 * 0.1
        speed_erpm := int16 s1 s0 * 10.0
        current_a := int16 c1 c0 * 0.01
        temperature_c := int8 temperature
        error := error }
  | _ => none

/-- A status frame names its motor in the low byte of its identifier. -/
theorem decode_status_can_id {frame : CanFrame} {status : Status K}
    (h : decode_status frame = some status) : status.can_id < 256 := by
  unfold decode_status at h
  split at h
  · split at h
    · cases h
    · injection h with h
      rw [← h]
      exact Nat.lt_succ_of_le Nat.and_le_right
  · cases h

/-- The zero-speed command. -/
def zero_speed (can_id : Nat) : CanFrame := ⟨MODE_SPEED <<< 8 ||| can_id, be_int32 0⟩

/-- Zero current: the motor stops driving and freewheels. -/
def encode_release (can_id : Nat) : CanFrame := ⟨MODE_CURRENT <<< 8 ||| can_id, be_int32 0⟩

variable [LinearOrder K]

/-- Gearbox output speed in rad/s. -/
def Status.output_velocity (status : Status K) (pole_pairs gear_ratio : Int) :
    Except (Exception K) K :=
  let per : K := erpm_per_rad_s pole_pairs gear_ratio
  if per = 0 then .error .zero_division_error else .ok (status.speed_erpm / per)

/-- Speed-loop command. -/
def encode_speed [FloorRing K] (can_id : Nat) (erpm : Dbl K) : Except (Exception K) CanFrame :=
  match erpm with
  | .nan => .error (.value_error "cannot convert float NaN to integer")
  | .ninf | .pinf => .error .overflow_error
  | .fin erpm =>
    let erpm := truncate erpm
    if MAX_ERPM ≤ |erpm| then
      .error (.value_error s!"{erpm} ERPM is beyond the servo-mode limit of {MAX_ERPM}")
    else
      match pack_int32 erpm with
      | .ok data => .ok ⟨MODE_SPEED <<< 8 ||| can_id, data⟩
      -- struct.error: numbers below the limit fit
      | .error _ => .error .other

/-- A speed below the limit is sent in the frame that the plugin would send. -/
theorem encode_speed_ok [FloorRing K] (can_id : Nat) {erpm : K} (h : |truncate erpm| < MAX_ERPM) :
    encode_speed can_id (.fin erpm) =
      .ok (int32_frame (MODE_SPEED <<< 8 ||| can_id) (Int32.ofInt (truncate erpm))) := by
  have hfits : FitsInt32 (truncate erpm) := by
    obtain ⟨hlow, hhigh⟩ := abs_lt.mp h
    unfold MAX_ERPM at hlow hhigh
    unfold FitsInt32
    omega
  unfold encode_speed
  dsimp only
  rw [if_neg (not_le.mpr h), pack_int32_ok hfits, int32_frame_ofInt]

theorem zero_speed_frame (can_id : Nat) :
    zero_speed can_id = int32_frame (MODE_SPEED <<< 8 ||| can_id) 0 :=
  (int32_frame_ofInt _ 0).symm

theorem encode_release_frame (can_id : Nat) :
    encode_release can_id = int32_frame (MODE_CURRENT <<< 8 ||| can_id) 0 :=
  (int32_frame_ofInt _ 0).symm

theorem encode_speed_zero [IsStrictOrderedRing K] [FloorRing K] (can_id : Nat) :
    encode_speed can_id (.fin (0 : K)) = .ok (zero_speed can_id) := by
  rw [encode_speed_ok can_id (by rw [truncate_zero]; decide), truncate_zero, zero_speed_frame]
  rfl

end Frames

inductive Received where
  | frame (frame : CanFrame)
  | timeout
  | failed
  | interrupted

structure Bus (K : Type) [Preorder K] where
  clock : SteadyClock K
  /-- Whether the `i`-th system call that may raise an `OSError` succeeds. -/
  calls : Nat → Bool
  receives : Nat → Received
  /-- For how many more rounds each loop is followed after its first one. -/
  rounds : Nat

inductive Event (K : Type) where
  | commanded (speed : Dbl K)
  | sent (frame : CanFrame)
  | received (frame : CanFrame)
  deriving DecidableEq

structure Session (K : Type) where
  readings : Nat := 0
  calls : Nat := 0
  receives : Nat := 0
  commanded : Dbl K
  release_only : Bool := false
  trace : List (Event K) := []

abbrev Tool (K : Type) : Type → Type := Prog (Session K) (Exception K)

section Socket
variable {K : Type} [Preorder K] (bus : Bus K)

/-- `time.monotonic()`. -/
def monotonic : Tool K K := fun s =>
  (.returned (bus.clock.reading s.readings), { s with readings := s.readings + 1 })

/-- `CanBus(interface)`. -/
def open_socket : Tool K Unit := fun s =>
  (if bus.calls s.calls then .returned () else .raised .os_error, { s with calls := s.calls + 1 })

def send (frame : CanFrame) : Tool K Unit := fun s =>
  (if bus.calls s.calls then .returned () else .raised .os_error,
    { s with calls := s.calls + 1, trace := s.trace ++ [.sent frame] })

/-- One receive that waits. -/
def await_frame : Tool K (Option CanFrame) := fun s =>
  match bus.receives s.receives with
  | .frame frame =>
    (.returned (some frame),
      { s with receives := s.receives + 1, trace := s.trace ++ [.received frame] })
  | .timeout => (.returned none, { s with receives := s.receives + 1 })
  | .failed => (.raised .os_error, { s with receives := s.receives + 1 })
  | .interrupted => (.raised .keyboard_interrupt, { s with receives := s.receives + 1 })

end Socket

variable {K : Type} [Field K] [LinearOrder K] (bus : Bus K)

/-- Next extended frame, or `none` after `timeout` seconds; without time left it does
not look at the socket. -/
def recv (timeout : Dbl K) : Tool K (Option CanFrame) :=
  if timeout ≤ .fin 0 then pure none else await_frame bus

/-- What `listen` saw on the bus. -/
structure Heard (K : Type) where
  status : Dict Nat (Status K) := []
  frames : Dict Nat Nat := []
  commanded : List Nat := []
  elapsed : K

/-- What one frame adds to `Heard`. -/
def Heard.add (heard : Heard K) (frame : CanFrame) : Heard K :=
  match decode_status frame with
  | some status =>
    { heard with
      status := heard.status.set status.can_id status
      frames := heard.frames.set status.can_id ((heard.frames.get status.can_id).getD 0 + 1) }
  | none =>
    if COMMAND_MODES.contains (frame.id >>> 8) then
      { heard with commanded := heard.commanded.insert (frame.id &&& 0xFF) }
    else heard

/-- What a receive adds; if it brings nothing the listening is over. With `status_only`
the kernel drops all but status frames. -/
def Heard.receive (heard : Heard K) (status_only : Bool) : Option CanFrame → Heard K ⊕ Heard K
  | none => .inl heard
  | some frame =>
    if status_only ∧ frame.id >>> 8 ≠ STATUS then .inr heard else .inr (heard.add frame)

def listen_round (deadline : Dbl K) (wanted : List Nat) (status_only : Bool) (heard : Heard K) :
    Tool K (Heard K ⊕ Heard K) :=
  if wanted ≠ [] ∧ wanted ⊆ heard.status.keys then pure (.inl heard)
  else do
    let now ← monotonic bus
    let remaining := deadline - .fin now
    if ¬ .fin 0 < remaining then pure (.inl heard)
    else do
      let frame ← recv bus remaining
      pure (heard.receive status_only frame)

/-- Listen for up to `duration` seconds, or until every CAN ID in `wanted` has reported. -/
def listen (duration : Dbl K) (wanted : List Nat) (status_only : Bool) : Tool K (Heard K) := do
  let start ← monotonic bus
  let deadline := .fin start + duration
  open_socket bus
  let heard ← forever (listen_round bus deadline wanted status_only) (bus.rounds + 1) { elapsed := 0 }
  let now ← monotonic bus
  pure { heard with elapsed := now - start }

/-- The defaults of `stop_motors`, in seconds. -/
def default_brake_time : Dbl K := .fin 0.3
def default_period : K := 0.02

variable [FloorRing K]

def send_zero_speeds (can_ids : List Nat) : Tool K Unit :=
  each can_ids fun can_id => do
    let frame ← lift (encode_speed can_id (.fin 0))
    send bus frame

/-- One round of the brake loop: it is left once another period would end after `until_`. -/
def brake_round (can_ids : List Nat) (until_ : Dbl K) (period : K) : Tool K (Unit ⊕ Unit) := do
  send_zero_speeds bus can_ids
  let now ← monotonic bus
  if until_ < .fin (now + period) then pure (.inl ()) else pure (.inr ())

/-- Hold zero speed for `brake_time` seconds, then release the motors. -/
def stop_motors (can_ids : List Nat) (brake_time : Dbl K) (period : K) : Tool K Unit := do
  let start ← monotonic bus
  let until_ := .fin start + brake_time
  forever (fun () => brake_round bus can_ids until_ period) (bus.rounds + 1) ()
  each can_ids fun can_id => send bus (encode_release can_id)

def brake_rounds (can_ids : List Nat) (k : Nat) : List CanFrame :=
  (List.replicate k (can_ids.map zero_speed)).flatten

/-- Zero speed to every motor, `k + 1` times over, then their release. -/
def stop_sequence (can_ids : List Nat) (k : Nat) : List CanFrame :=
  brake_rounds can_ids (k + 1) ++ can_ids.map encode_release

theorem brake_rounds_succ (can_ids : List Nat) (k : Nat) :
    brake_rounds can_ids (k + 1) = brake_rounds can_ids k ++ can_ids.map zero_speed := by
  simp [brake_rounds, List.replicate_succ']

section Sends
variable {K : Type} [Preorder K] (bus : Bus K) {α β : Type}

/-- From the trace `t` on a program sends `frames` and nothing else: all of them if it
returns, and a part of them, not empty, if a send fails or if it still goes on. -/
inductive Sends (t : List (Event K)) (frames : List CanFrame) :
    Outcome (Exception K) α → Session K → Prop
  | all (a : α) (s : Session K) : s.trace = t ++ frames.map .sent →
      Sends t frames (.returned a) s
  | failed (first : List CanFrame) (s : Session K) : first <+: frames → first ≠ [] →
      (∃ i, bus.calls i = false) → s.trace = t ++ first.map .sent →
      Sends t frames (.raised .os_error) s
  | going (first : List CanFrame) (s : Session K) : first <+: frames → first ≠ [] →
      s.trace = t ++ first.map .sent → Sends t frames .running s

variable {bus} {t : List (Event K)} {frames more : List CanFrame}

/-- Whatever the outcome, some of the frames were sent, the first of them among them. -/
theorem Sends.some {o : Outcome (Exception K) α} {s : Session K} (h : Sends bus t frames o s)
    (hne : frames ≠ []) :
    ∃ first, first <+: frames ∧ first ≠ [] ∧ s.trace = t ++ first.map .sent := by
  cases h with
  | all _ _ h => exact ⟨frames, List.prefix_refl _, hne, h⟩
  | failed first _ hfirst hne _ h => exact ⟨first, hfirst, hne, h⟩
  | going first _ hfirst hne h => exact ⟨first, hfirst, hne, h⟩

theorem sends_none {p : Tool K α} (h : ∀ s, ∃ a, (p s).1 = .returned a ∧ (p s).2.trace = s.trace) :
    Triple (fun s => s.trace = t) p (Sends bus t []) := by
  intro s hs
  obtain ⟨a, hret, htrace⟩ := h s
  rw [hret]
  exact .all a _ (by rw [htrace, hs]; simp)

theorem sends_one (frame : CanFrame) :
    Triple (fun s => s.trace = t) (send bus frame) (Sends bus t [frame]) := by
  intro s hs
  unfold send
  cases hcall : bus.calls s.calls with
  | true => exact .all () _ (by simp [hs])
  | false => exact .failed [frame] _ (List.prefix_refl _) (by simp) ⟨_, hcall⟩ (by simp [hs])

/-- What is sent before a program goes on with what it sends. -/
theorem Sends.before {o : Outcome (Exception K) β} {s : Session K}
    (h : Sends bus (t ++ frames.map .sent) more o s) : Sends bus t (frames ++ more) o s := by
  cases h with
  | all b s h => exact .all b s (by rw [h]; simp)
  | failed first s hfirst hne hcall h =>
    exact .failed (frames ++ first) s ((List.prefix_append_right_inj _).mpr hfirst)
      (by simp [hne]) hcall (by rw [h]; simp)
  | going first s hfirst hne h =>
    exact .going (frames ++ first) s ((List.prefix_append_right_inj _).mpr hfirst)
      (by simp [hne]) (by rw [h]; simp)

/-- An abort of the first part is an abort of the whole. -/
theorem Sends.aborts : Aborts (Sends bus t frames (α := α)) (Sends bus t (frames ++ more) (α := β)) := by
  refine ⟨fun e s h => ?_, fun s h => ?_⟩
  · cases h with
    | failed first s hfirst hne hcall h =>
      exact .failed first s (hfirst.trans (List.prefix_append _ _)) hne hcall h
  · cases h with
    | going first s hfirst hne h =>
      exact .going first s (hfirst.trans (List.prefix_append _ _)) hne h

theorem sends_bind {P : Session K → Prop} {p : Tool K α} {q : α → Tool K β}
    (hp : Triple P p (Sends bus t frames))
    (hq : ∀ a, Triple (fun s => s.trace = t ++ frames.map .sent) (q a)
      (Sends bus (t ++ frames.map .sent) more)) :
    Triple P (p >>= q) (Sends bus t (frames ++ more)) := by
  refine bind_rule hp (fun a => ?_) Sends.aborts
  refine (hq a).weaken ?_ fun o s h => h.before
  intro s h
  cases h with
  | all _ _ h => exact h

theorem sends_each {ι : Type} {body : ι → Tool K Unit} {frame : ι → CanFrame}
    (hbody : ∀ x t, Triple (fun s => s.trace = t) (body x) (Sends bus t [frame x])) :
    ∀ (l : List ι) (t : List (Event K)),
      Triple (fun s => s.trace = t) (each l body) (Sends bus t (l.map frame)) := by
  intro l
  induction l with
  | nil => exact fun t s hs => .all () s (by rw [hs]; simp)
  | cons x l ih => exact fun t => sends_bind (hbody x t) fun _ => ih _

end Sends

section Stop
variable {K : Type} [Field K] [LinearOrder K] [IsStrictOrderedRing K] [FloorRing K] {bus : Bus K}
  {t : List (Event K)} {can_ids : List Nat} {until_ : Dbl K} {period : K}

omit [Field K] [IsStrictOrderedRing K] [FloorRing K] in
theorem sends_monotonic : Triple (fun s => s.trace = t) (monotonic bus) (Sends bus t []) :=
  sends_none fun _ => ⟨_, rfl, rfl⟩

/-- One round of the brake sends zero speed to every motor. -/
theorem brake_round_sends : Triple (fun s => s.trace = t) (brake_round bus can_ids until_ period)
    (Sends bus t (can_ids.map zero_speed)) := by
  have hsweep : ∀ x t, Triple (fun s => s.trace = t)
      (do let frame ← lift (encode_speed x (.fin (0 : K))); send bus frame)
      (Sends bus t [zero_speed x]) := by
    intro x t
    rw [encode_speed_zero]
    exact sends_one (zero_speed x)
  have hrest : can_ids.map zero_speed = can_ids.map zero_speed ++ ([] ++ []) := by simp
  rw [hrest]
  refine sends_bind (sends_each hsweep can_ids t) fun _ => ?_
  refine sends_bind sends_monotonic fun now => ?_
  split
  · exact sends_none fun _ => ⟨_, rfl, rfl⟩
  · exact sends_none fun _ => ⟨_, rfl, rfl⟩

/-- The brake loop sends whole rounds until a send fails or it is left. -/
theorem brake_sends (hne : can_ids ≠ []) : Triple (fun s => s.trace = t)
    (forever (fun () => brake_round bus can_ids until_ period) (bus.rounds + 1) ())
    fun o s => ∃ k, Sends bus t (brake_rounds can_ids (k + 1)) o s := by
  -- `k` rounds are done when `n` are still to go
  let I : Nat → Unit → Session K → Prop := fun n _ s =>
    ∃ k, k + n = bus.rounds + 1 ∧ s.trace = t ++ (brake_rounds can_ids k).map .sent
  let R : Nat → Outcome (Exception K) (Unit ⊕ Unit) → Session K → Prop := fun n o s =>
    ∃ k, k + n = bus.rounds ∧ Sends bus (t ++ (brake_rounds can_ids k).map .sent)
      (can_ids.map zero_speed) o s
  have hdone : ∀ k, Sends bus t (brake_rounds can_ids (k + 1)) = (Sends bus t
      (brake_rounds can_ids k ++ can_ids.map zero_speed) :
        Outcome (Exception K) Unit → Session K → Prop) := by
    intro k
    rw [brake_rounds_succ]
  refine (forever_rule I (R := R) ?_ ?_ ?_ ?_ ?_ (bus.rounds + 1) ()).weaken ?_ fun _ _ h => h
  · rintro n _ s ⟨k, hk, hs⟩
    exact ⟨k, by omega, brake_round_sends s hs⟩
  · rintro n _ s ⟨k, hk, h⟩
    cases h with
    | all _ _ h =>
      refine ⟨k + 1, by omega, ?_⟩
      rw [h, brake_rounds_succ]
      simp
  · rintro n _ s ⟨k, hk, h⟩
    refine ⟨k, ?_⟩
    cases h with
    | all _ _ h =>
      rw [hdone]
      exact Sends.before (.all () s h)
  · intro n
    refine ⟨?_, ?_⟩
    · rintro e s ⟨k, hk, h⟩
      refine ⟨k, ?_⟩
      rw [hdone]
      cases h with
      | failed first _ hfirst hne hcall h => exact Sends.before (.failed first s hfirst hne hcall h)
    · rintro s ⟨k, hk, h⟩
      refine ⟨k, ?_⟩
      rw [hdone]
      cases h with
      | going first _ hfirst hne h => exact Sends.before (.going first s hfirst hne h)
  · rintro _ s ⟨k, hk, hs⟩
    refine ⟨bus.rounds, .going _ s (List.prefix_refl _) ?_ ?_⟩
    · rw [brake_rounds_succ]
      simp [hne]
    · rw [hs, show k = bus.rounds + 1 by omega]
  · intro s hs
    exact ⟨0, by omega, by rw [hs]; simp [brake_rounds]⟩

/-- `stop_motors` brakes for at least one round and then releases. -/
theorem stop_motors_sends (can_ids : List Nat) (hne : can_ids ≠ []) (brake_time : Dbl K)
    (period : K) : Triple (fun s => s.trace = t) (stop_motors bus can_ids brake_time period)
      fun o s => ∃ k, Sends bus t (stop_sequence can_ids k) o s := by
  have hrelease : ∀ t, Triple (fun s => s.trace = t)
      (each can_ids fun can_id => send bus (encode_release can_id))
      (Sends bus t (can_ids.map encode_release)) := fun t =>
    sends_each (fun can_id _ => sends_one (encode_release can_id)) can_ids t
  refine bind_rule (S := fun o s => ∃ k, Sends bus t (stop_sequence can_ids k) o s)
    sends_monotonic (fun start => ?_) ⟨?_, ?_⟩
  · refine bind_rule (R := fun o s => ∃ k, Sends bus t (brake_rounds can_ids (k + 1)) o s)
      ((brake_sends hne).weaken ?_ fun _ _ h => h) (fun _ => ?_) ⟨?_, ?_⟩
    · intro s h
      cases h with
      | all _ _ h => simpa using h
    · rintro s ⟨k, h⟩
      cases h with
      | all _ _ h => exact ⟨k, (hrelease _ s h).before⟩
    · exact fun e s ⟨k, h⟩ => ⟨k, Sends.aborts.1 e s h⟩
    · exact fun s ⟨k, h⟩ => ⟨k, Sends.aborts.2 s h⟩
  · rintro e s h
    cases h with
    | failed first _ hfirst hne => exact absurd (List.prefix_nil.mp hfirst) hne
  · rintro s h
    cases h with
    | going first _ hfirst hne => exact absurd (List.prefix_nil.mp hfirst) hne

end Stop

end IotRobot.Can
