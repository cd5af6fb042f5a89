import IotRobot.Lib.Traces
import IotRobot.Tool.Moves

/-!
# Watching the motor during a move

A frame shows its motor running away if the speed it reports differs from the
latest commanded one by more than the command and `RUNAWAY_MARGIN`. The first
frame that one of the checks objects to ends the move, so every frame before it
is calm. Which exception it ends with depends on which check objected: the
checks for a fault and for the current come first.
-/

namespace IotRobot.Tool

open Lib Prog Can

set_option autoImplicit false

section Traces
variable {K : Type} [Field K] [LinearOrder K]

/-- The speed decided on last in a trace. -/
def latest_commanded (trace : List (Event K)) : Dbl K :=
  trace.foldl (fun speed e => match e with | .commanded v => v | _ => speed) (.fin 0)

omit [LinearOrder K] in
@[simp] theorem latest_commanded_commanded (t : List (Event K)) (v : Dbl K) :
    latest_commanded (t ++ [.commanded v]) = v := by
  simp [latest_commanded]

omit [LinearOrder K] in
@[simp] theorem latest_commanded_sent (t : List (Event K)) (frame : CanFrame) :
    latest_commanded (t ++ [.sent frame]) = latest_commanded t := by
  simp [latest_commanded]

omit [LinearOrder K] in
@[simp] theorem latest_commanded_received (t : List (Event K)) (frame : CanFrame) :
    latest_commanded (t ++ [.received frame]) = latest_commanded t := by
  simp [latest_commanded]

/-- The status shows another output speed than `commanded`, by more than the margin. -/
def RunsAway (args : Args) (status : Status K) (commanded : Dbl K) : Prop :=
  ∃ measured, status.output_velocity args.pole_pairs args.gear_ratio = .ok measured ∧
    Dbl.maximum (.fin RUNAWAY_MARGIN) commanded.abs < (.fin measured - commanded).abs

/-- `wiggle` objects to the status before it looks at the speed. -/
def Disturbed (args : IdentifyArgs K) (status : Status K) : Prop :=
  status.error ≠ 0 ∨ args.max_current.val < .fin |status.current_a|

/-- After `before`, the frame is a status of the motor with `P` of it and of the latest
commanded speed. -/
def Shows (can_id : Nat) (P : Status K → Dbl K → Prop) (before : List (Event K))
    (frame : CanFrame) : Prop :=
  ∃ status, decode_status frame = some status ∧ status.can_id = can_id ∧
    P status (latest_commanded before)

/-- No frame received in the trace shows the motor running away. -/
def Calm (args : Args) (can_id : Nat) : List (Event K) → Prop :=
  Throughout fun before e =>
    ∀ frame, e = .received frame → ¬ Shows can_id (RunsAway args) before frame

variable {args : Args} {can_id : Nat} {t : List (Event K)}

omit [LinearOrder K] in
theorem Shows.unique {P Q : Status K → Dbl K → Prop} {before : List (Event K)} {frame : CanFrame}
    (hP : Shows can_id P before frame) (hQ : Shows can_id Q before frame) :
    Shows can_id (fun status speed => P status speed ∧ Q status speed) before frame := by
  obtain ⟨status, hstatus, hid, hP⟩ := hP
  obtain ⟨status', hstatus', -, hQ⟩ := hQ
  cases hstatus.symm.trans hstatus'
  exact ⟨status, hstatus, hid, hP, hQ⟩

theorem Calm.quiet (h : Calm args can_id t) {e : Event K} (he : ∀ frame, e ≠ .received frame) :
    Calm args can_id (t ++ [e]) :=
  h.snoc fun frame hframe => absurd hframe (he frame)

theorem Calm.sends (h : Calm args can_id t) (frames : List CanFrame) :
    Calm args can_id (t ++ frames.map .sent) := by
  refine h.append fun before e after hframes frame he => ?_
  have hmem : e ∈ frames.map (Event.sent (K := K)) := by rw [hframes]; simp
  obtain ⟨sent, -, hsent⟩ := List.mem_map.mp hmem
  subst he
  cases hsent

end Traces

section Verdicts
variable {K : Type} [Field K] [LinearOrder K]

/-- The exception asks for a release without a brake. -/
def Releases (e : Exception K) : Prop :=
  ∃ err : MotorStopped K, e = .motor_stopped err ∧ err.release_only = true

/-- What a check may say of a status when `commanded` is the latest speed. -/
inductive Verdict (args : Args) (disturbed : Status K → Prop) (status : Status K)
    (commanded : Dbl K) : Except (Exception K) Unit → Prop
  | fine : ¬ RunsAway args status commanded → Verdict args disturbed status commanded (.ok ())
  | undefined (e : Exception K) : ¬ RunsAway args status commanded → ¬ Releases e →
      Verdict args disturbed status commanded (.error e)
  | brake (e : Exception K) : disturbed status → ¬ Releases e →
      Verdict args disturbed status commanded (.error e)
  | release (e : Exception K) : ¬ disturbed status → RunsAway args status commanded → Releases e →
      Verdict args disturbed status commanded (.error e)

theorem check_following_verdict (args : Args) {disturbed : Status K → Prop} {status : Status K}
    (h : ¬ disturbed status) (commanded : Dbl K) :
    Verdict args disturbed status commanded (check_following args status commanded) := by
  unfold check_following
  cases hspeed : status.output_velocity args.pole_pairs args.gear_ratio with
  | error e =>
    refine .undefined e ?_ ?_
    · rintro ⟨measured, hmeasured, -⟩
      rw [hspeed] at hmeasured
      cases hmeasured
    · rintro ⟨err, rfl, -⟩
      unfold Status.output_velocity at hspeed
      dsimp only at hspeed
      split at hspeed
      · cases hspeed
      · cases hspeed
  | ok measured =>
    dsimp only
    split
    · next haway => exact .release _ h ⟨measured, hspeed, haway⟩ ⟨_, rfl, rfl⟩
    · next haway =>
      refine .fine ?_
      rintro ⟨measured', hmeasured, hgap⟩
      rw [hspeed] at hmeasured
      cases hmeasured
      exact haway hgap

theorem supervise_verdict (args : IdentifyArgs K) (status : Status K) (commanded : Dbl K) :
    Verdict args.toArgs (Disturbed args) status commanded (supervise args status commanded) := by
  have hbrake : ∀ message, ¬ Releases (.motor_stopped { message := message } : Exception K) := by
    rintro message ⟨err, herr, hrelease⟩
    injection herr with herr
    rw [← herr] at hrelease
    cases hrelease
  unfold supervise
  by_cases herror : status.error = 0
  · rw [if_neg (not_not.mpr herror)]
    by_cases hcurrent : args.max_current.val < .fin |status.current_a|
    · rw [if_pos hcurrent]
      exact .brake _ (.inr hcurrent) (hbrake _)
    · rw [if_neg hcurrent]
      refine check_following_verdict args.toArgs ?_ commanded
      rintro (h | h)
      · exact h herror
      · exact hcurrent h
  · rw [if_pos herror]
    exact .brake _ (.inl herror) (hbrake _)

end Verdicts

section Course
variable {K : Type} [Field K] [LinearOrder K] (args : Args) (can_id : Nat)
  (disturbed : Status K → Prop) (C : Dbl K → Prop)

/-- As long as no check objects. -/
structure Going (s : Session K) : Prop where
  calm : Calm args can_id s.trace
  latest : s.commanded = latest_commanded s.trace
  speed : C s.commanded
  brakes : s.release_only = false

/-- The trace ends with the frame that a check objected to. -/
inductive Objected (releases : Prop) (trace : List (Event K)) : Prop
  | brake (t : List (Event K)) (frame : CanFrame) : trace = t ++ [.received frame] →
      Calm args can_id t → Shows can_id (fun status _ => disturbed status) t frame →
      ¬ releases → Objected releases trace
  | release (t : List (Event K)) (frame : CanFrame) : trace = t ++ [.received frame] →
      Calm args can_id t →
      Shows can_id (fun status speed => ¬ disturbed status ∧ RunsAway args status speed) t frame →
      releases → Objected releases trace

/-- What an exception leaves: a calm trace, or an objection to its last frame. -/
inductive Stopped (e : Exception K) (s : Session K) : Prop
  | calm : Calm args can_id s.trace → ¬ Releases e → s.release_only = false → Stopped e s
  | objected : Objected args can_id disturbed (Releases e) s.trace → s.release_only = false →
      Stopped e s

/-- A program that checks a status against the latest speed and does nothing else. -/
def Watches (on_status : Status K → Tool K Unit) : Prop :=
  ∀ status s, C s.commanded → ∃ x : Except (Exception K) Unit,
    Verdict args disturbed status s.commanded x ∧ on_status status s = lift x s

variable {args can_id disturbed C} {bus : Bus K}

theorem going_monotonic :
    Keeps (Going args can_id C) (Stopped args can_id disturbed) (monotonic bus) :=
  fun _ hs => .returned _ _ ⟨hs.calm, hs.latest, hs.speed, hs.brakes⟩

theorem going_send (frame : CanFrame) :
    Keeps (Going args can_id C) (Stopped args can_id disturbed) (send bus frame) := by
  intro s hs
  have hcalm : Calm args can_id (s.trace ++ [.sent frame]) := hs.calm.quiet (by simp)
  unfold send
  cases hcall : bus.calls s.calls with
  | true =>
    refine .returned () _ ⟨hcalm, ?_, hs.speed, hs.brakes⟩
    rw [latest_commanded_sent]
    exact hs.latest
  | false => exact .raised _ _ (.calm hcalm (by rintro ⟨err, herr, -⟩; cases herr) hs.brakes)

theorem going_commanded {v : Dbl K} (hv : C v) :
    Keeps (Going args can_id C) (Stopped args can_id disturbed) (set_commanded v) :=
  fun s hs => .returned () _
    ⟨hs.calm.quiet (by simp), (latest_commanded_commanded s.trace v).symm, hv, hs.brakes⟩

theorem going_lift {α : Type} {x : Except (Exception K) α}
    (h : ∀ e, x = .error e → ¬ Releases e) :
    Keeps (Going args can_id C) (Stopped args can_id disturbed) (lift x : Tool K α) :=
  keeps_lift fun e he _ hs => .calm hs.calm (h e he) hs.brakes

/-- A frame just received, before it is looked at. -/
structure Fresh (args : Args) (can_id : Nat) (C : Dbl K → Prop) (frame : CanFrame)
    (t : List (Event K)) (s : Session K) : Prop where
  trace : s.trace = t ++ [.received frame]
  calm : Calm args can_id t
  latest : s.commanded = latest_commanded t
  speed : C s.commanded
  brakes : s.release_only = false

/-- A frame that does not show the motor running away leaves the move going. -/
theorem Fresh.going {frame : CanFrame} {t : List (Event K)} {s : Session K}
    (h : Fresh args can_id C frame t s) (hshows : ¬ Shows can_id (RunsAway args) t frame) :
    Going args can_id C s := by
  refine ⟨?_, ?_, h.speed, h.brakes⟩
  · rw [h.trace]
    refine h.calm.snoc fun frame' hframe => ?_
    injection hframe with hframe
    rw [← hframe]
    exact hshows
  · rw [h.trace, latest_commanded_received]
    exact h.latest

/-- Looking at a fresh frame either goes on or objects to it. -/
theorem pass_status_keeps {on_status : Status K → Tool K Unit}
    (hwatch : Watches args disturbed C on_status) {frame : CanFrame} {t : List (Event K)} :
    Triple (Fresh args can_id C frame t) (pass_status can_id on_status (some frame))
      (Kept (Going args can_id C) (Stopped args can_id disturbed)) := by
  intro s hs
  unfold pass_status
  cases hdecode : (some frame).bind (decode_status (K := K)) with
  | none =>
    refine .returned () s (hs.going ?_)
    rintro ⟨status, hstatus, -⟩
    cases hdecode.symm.trans hstatus
  | some status =>
    dsimp only
    by_cases hid : status.can_id = can_id
    · rw [if_pos hid]
      obtain ⟨x, hverdict, hrun⟩ := hwatch status s hs.speed
      have hshows : ∀ P : Status K → Dbl K → Prop, Shows can_id P t frame ↔ P status s.commanded := by
        intro P
        rw [hs.latest]
        constructor
        · rintro ⟨status', hstatus, -, hP⟩
          cases hdecode.symm.trans hstatus
          exact hP
        · exact fun hP => ⟨status, hdecode, hid, hP⟩
      rw [hrun]
      cases hverdict with
      | fine h => exact .returned () s (hs.going (mt (hshows _).mp h))
      | undefined e h hrelease =>
        exact .raised e s (.calm (hs.going (mt (hshows _).mp h)).calm hrelease hs.brakes)
      | brake e h hrelease =>
        exact .raised e s
          (.objected (.brake t frame hs.trace hs.calm ((hshows _).mpr h) hrelease) hs.brakes)
      | release e h haway hrelease =>
        exact .raised e s (.objected
          (.release t frame hs.trace hs.calm ((hshows _).mpr ⟨h, haway⟩) hrelease) hs.brakes)
    · rw [if_neg hid]
      refine .returned () s (hs.going ?_)
      rintro ⟨status', hstatus, hid', -⟩
      cases hdecode.symm.trans hstatus
      exact hid hid'

/-- What a receive leaves: nothing new, a frame to look at, or an exception. -/
inductive Brought (args : Args) (can_id : Nat) (disturbed : Status K → Prop)
    (C : Dbl K → Prop) : Outcome (Exception K) (Option CanFrame) → Session K → Prop
  | nothing (s : Session K) : Going args can_id C s →
      Brought args can_id disturbed C (.returned none) s
  | frame (frame : CanFrame) (t : List (Event K)) (s : Session K) :
      Fresh args can_id C frame t s → Brought args can_id disturbed C (.returned (some frame)) s
  | failed (e : Exception K) (s : Session K) : Stopped args can_id disturbed e s →
      Brought args can_id disturbed C (.raised e) s

theorem recv_brings (timeout : Dbl K) :
    Triple (Going args can_id C) (recv bus timeout) (Brought args can_id disturbed C) := by
  have hquiet : ∀ e : Exception K, e = .os_error ∨ e = .keyboard_interrupt → ¬ Releases e := by
    rintro e he ⟨err, rfl, -⟩
    rcases he with he | he
    · cases he
    · cases he
  intro s hs
  unfold recv
  split
  · exact .nothing s hs
  · unfold await_frame
    cases bus.receives s.receives with
    | frame frame => exact .frame frame s.trace _ ⟨rfl, hs.calm, hs.latest, hs.speed, hs.brakes⟩
    | timeout => exact .nothing _ ⟨hs.calm, hs.latest, hs.speed, hs.brakes⟩
    | failed => exact .failed _ _ (.calm hs.calm (hquiet _ (.inl rfl)) hs.brakes)
    | interrupted => exact .failed _ _ (.calm hs.calm (hquiet _ (.inr rfl)) hs.brakes)

/-- One receive and the look at what it brings. -/
theorem receive_keeps {on_status : Status K → Tool K Unit}
    (hwatch : Watches args disturbed C on_status) (timeout : Dbl K) {α : Type} (a : α) :
    Keeps (Going args can_id C) (Stopped args can_id disturbed)
      (do
        let frame ← recv bus timeout
        pass_status can_id on_status frame
        pure a) := by
  have hpass : ∀ frame, Triple (Brought args can_id disturbed C (.returned frame))
      (pass_status can_id on_status frame)
      (Kept (Going args can_id C) (Stopped args can_id disturbed)) := by
    intro frame s hs
    cases hs with
    | nothing _ h => exact .returned () s h
    | frame frame t _ h => exact pass_status_keeps hwatch s h
  refine bind_rule (R := Brought args can_id disturbed C) (recv_brings timeout)
    (fun frame => ?_) ⟨?_, ?_⟩
  · refine bind_rule (hpass frame) (fun _ => ?_) Kept.aborts
    intro s h
    cases h with
    | returned _ _ h => exact .returned a s h
  · intro e s h
    cases h with
    | failed _ _ h => exact .raised e s h
  · intro s h
    cases h

theorem send_for_keeps {command : K → Tool K CanFrame} {on_status : Status K → Tool K Unit}
    (hcommand : ∀ t, Keeps (Going args can_id C) (Stopped args can_id disturbed) (command t))
    (hwatch : Watches args disturbed C on_status) (duration : Dbl K) :
    Keeps (Going args can_id C) (Stopped args can_id disturbed)
      (send_for bus command can_id on_status duration) := by
  refine keeps_bind going_monotonic fun start => ?_
  refine keeps_forever (fun next_send => ?_) _ _
  refine keeps_bind going_monotonic fun now => ?_
  split
  · exact keeps_ret _
  · refine keeps_bind ?_ fun next_send => ?_
    · unfold send_due
      split
      · exact keeps_bind (hcommand _) fun frame => keeps_bind (going_send frame) fun _ => keeps_ret _
      · exact keeps_ret _
    · exact keeps_bind going_monotonic fun later => receive_keeps hwatch _ _

/-- How a move stands when its `finally` block starts. -/
inductive Ended (args : Args) (can_id : Nat) (disturbed : Status K → Prop) (release_only : Bool)
    (trace : List (Event K)) : Prop
  | calm : Calm args can_id trace → release_only = false →
      Ended args can_id disturbed release_only trace
  | objected : Objected args can_id disturbed (release_only = true) trace →
      Ended args can_id disturbed release_only trace

theorem Going.ended {s : Session K} (h : Going args can_id C s) :
    Ended args can_id disturbed s.release_only s.trace := .calm h.calm h.brakes

theorem Stopped.ended {e : Exception K} {s : Session K} (h : Stopped args can_id disturbed e s)
    {release_only : Bool} (hr : release_only = true ↔ Releases e) :
    Ended args can_id disturbed release_only s.trace := by
  cases h with
  | calm hcalm hrelease _ =>
    refine .calm hcalm ?_
    cases release_only with
    | false => rfl
    | true => exact absurd (hr.mp rfl) hrelease
  | objected hobjected _ => exact .objected (by rw [hr]; exact hobjected)

/-- An exception that a handler does not catch asks for a brake. -/
theorem Stopped.uncaught {e : Exception K} {s : Session K} (h : Stopped args can_id disturbed e s)
    (he : ∀ err, e ≠ .motor_stopped err) : Ended args can_id disturbed s.release_only s.trace := by
  have hbrakes : s.release_only = false := by
    cases h with
    | calm _ _ hbrakes => exact hbrakes
    | objected _ hbrakes => exact hbrakes
  refine h.ended ?_
  rw [hbrakes]
  constructor
  · intro h
    cases h
  · rintro ⟨err, rfl, -⟩
    exact absurd rfl (he err)

omit [Field K] [LinearOrder K] in
theorem releases_iff (err : MotorStopped K) :
    err.release_only = true ↔ Releases (.motor_stopped err) := by
  constructor
  · exact fun h => ⟨err, rfl, h⟩
  · rintro ⟨err', herr, h⟩
    injection herr with herr
    rw [herr]
    exact h

abbrev ended (args : Args) (can_id : Nat) (disturbed : Status K → Prop) (s : Session K) : Prop :=
  Ended args can_id disturbed s.release_only s.trace

/-- What a handler leaves for the `finally` block. -/
inductive Handled (args : Args) (can_id : Nat) (disturbed : Status K → Prop) {α : Type} :
    Outcome (Exception K) α → Session K → Prop
  | returned (a : α) (s : Session K) : ended args can_id disturbed s →
      Handled args can_id disturbed (.returned a) s
  | raised (e : Exception K) (s : Session K) : ended args can_id disturbed s →
      Handled args can_id disturbed (.raised e) s

theorem Handled.stands {α : Type} {o : Outcome (Exception K) α} {s : Session K}
    (h : Handled args can_id disturbed o s) : ended args can_id disturbed s ∧ o ≠ .running := by
  cases h with
  | returned _ _ h => exact ⟨h, by simp⟩
  | raised _ _ h => exact ⟨h, by simp⟩

theorem note_stop_handles (e : Exception K) :
    Triple (Stopped args can_id disturbed e) (note_stop e) (Handled args can_id disturbed) := by
  intro s hs
  unfold note_stop
  split
  · next err => exact .returned () _ (hs.ended (releases_iff err))
  · next hother => exact .raised _ s (hs.uncaught hother)

theorem end_jog_handles (e : Exception K) :
    Triple (Stopped args can_id disturbed e) (end_jog e) (Handled args can_id disturbed) := by
  intro s hs
  unfold end_jog
  split
  · exact .returned 0 s (hs.uncaught (by simp))
  · next err => exact .returned 1 _ (hs.ended (releases_iff err))
  · next hother => exact .raised _ s (hs.uncaught hother)

end Course

end IotRobot.Tool
