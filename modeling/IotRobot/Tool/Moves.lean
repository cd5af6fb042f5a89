import IotRobot.Can.Cubemars

/-!
# Moves of the bench tool

`wiggle` is the move of `cubemars_tool identify`, `jog_move` the one of
`cubemars_tool jog`. Both watch the status frames of the motor they move and end
the move with a brake or, for a motor that runs away, with its release alone.

A line that the tool prints is left out; where it shows a frame, computing it
raises what `check_following` raises anyway.
-/

namespace IotRobot.Tool

open Lib Prog Can

set_option autoImplicit false

variable {K : Type} [Field K] [LinearOrder K]

/-- Hz. -/
def SEND_RATE : K := 50.0

/-- rad/s. -/
def RUNAWAY_MARGIN : K := 1.0

/-- An argument that `positive` accepts: greater than 0, perhaps infinite. -/
abbrev Positive (K : Type) [Field K] [LinearOrder K] := { number : Dbl K // .fin 0 < number }

def positive (number : Dbl K) : Option (Positive K) :=
  if h : .fin 0 < number then some ⟨number, h⟩ else none

structure Args where
  pole_pairs : Int := POLE_PAIRS
  gear_ratio : Int := GEAR_RATIO

structure IdentifyArgs (K : Type) [Field K] [LinearOrder K] extends Args where
  degrees : Positive K
  speed : Positive K
  repeat_ : Int := 2
  max_current : Positive K

structure JogArgs (K : Type) [Field K] [LinearOrder K] extends Args where
  velocity : Dbl K
  duration : Positive K
  max_velocity : Dbl K
  max_gizmo_travel : Positive K

/-- Raise `MotorStopped` if the motor's speed does not follow `commanded` (rad/s). -/
def check_following (args : Args) (status : Status K) (commanded : Dbl K) :
    Except (Exception K) Unit :=
  match status.output_velocity args.pole_pairs args.gear_ratio with
  | .error e => .error e
  | .ok measured =>
    if Dbl.maximum (.fin RUNAWAY_MARGIN) commanded.abs < (.fin measured - commanded).abs then
      .error (.motor_stopped
        { message := .not_following measured commanded, release_only := true })
    else .ok ()

/-- What `wiggle` checks of a status frame. -/
def supervise (args : IdentifyArgs K) (status : Status K) (commanded : Dbl K) :
    Except (Exception K) Unit :=
  if status.error ≠ 0 then
    .error (.motor_stopped { message := .fault status.error_text })
  else if args.max_current.val < .fin |status.current_a| then
    .error (.motor_stopped { message := .over_current status.current_a args.max_current.val })
  else check_following args.toArgs status commanded

section SendFor
variable (bus : Bus K) (command : K → Tool K CanFrame) (can_id : Nat) (on_status : Status K → Tool K Unit)

/-- Send the command if it is due; the instant of the next one. -/
def send_due (start now next_send : K) : Tool K K :=
  if next_send ≤ now then do
    let frame ← command (now - start)
    send bus frame
    pure (next_send + 1.0 / SEND_RATE)
  else pure next_send

/-- Pass what was received to `on_status` if it is a status frame of the motor. -/
def pass_status (frame : Option CanFrame) : Tool K Unit :=
  match frame.bind decode_status with
  | some status => if status.can_id = can_id then on_status status else pure ()
  | none => pure ()

/-- Send a command at `SEND_RATE` for `duration` seconds, passing status frames on. -/
def send_for (duration : Dbl K) : Tool K Unit := do
  let start ← monotonic bus
  let end_ := .fin start + duration
  forever (fun (next_send : K) => do
    let now ← monotonic bus
    if ¬ .fin now < end_ then pure (.inl ())
    else
      let next_send ← send_due bus command start now next_send
      let later ← monotonic bus
      let frame ← recv bus
        (Dbl.maximum (.fin 0.0) (Dbl.minimum (.fin next_send) end_ - .fin later))
      pass_status can_id on_status frame
      pure (.inr next_send))
    (bus.rounds + 1) start

end SendFor

/-- `commanded[0] = speed`. -/
def set_commanded (speed : Dbl K) : Tool K Unit :=
  update fun s => { s with commanded := speed, trace := s.trace ++ [.commanded speed] }

/-- `except MotorStopped as err`. -/
def note_stop : Exception K → Tool K Unit
  | .motor_stopped err => update fun s => { s with release_only := err.release_only }
  | e => raise e

section End
variable [FloorRing K] (bus : Bus K)

/-- Brake and release the motor after a move, or only release a runaway one. -/
def end_move (can_id : Nat) (release_only : Bool) : Tool K Unit :=
  if release_only then send bus (encode_release can_id)
  else stop_motors bus [can_id] default_brake_time default_period

/-- `finally: end_move(bus, can_id, release_only)`. -/
def finish_move (can_id : Nat) : Tool K Unit := do
  let release_only ← read Session.release_only
  end_move bus can_id release_only

end End

section Wiggle
variable (bus : Bus K) (can_id : Nat) (args : IdentifyArgs K)

/-- Seconds of one leg: a triangle of height `speed` covers `speed * leg / 2`. -/
def leg_time : Except (Exception K) (Dbl K) :=
  match Dbl.div (.fin 2.0 * (args.degrees.val * .fin (pi_double / 180.0))) args.speed.val with
  | some leg => .ok leg
  | none => .error .zero_division_error

/-- The triangular speed profile at `t` seconds into a leg. -/
def profile_speed (leg : Dbl K) (sign t : K) : Except (Exception K) (Dbl K) :=
  match Dbl.div (.fin (2.0 * t)) leg with
  | some phase =>
    .ok (.fin sign * Dbl.maximum (.fin 0.0) (.fin 1.0 - (phase - .fin 1.0).abs) * args.speed.val)
  | none => .error .zero_division_error

def supervise_latest (status : Status K) : Tool K Unit := do
  let commanded ← read Session.commanded
  lift (supervise args status commanded)

variable [FloorRing K]

def profile (leg : Dbl K) (sign t : K) : Tool K CanFrame := do
  let speed ← lift (profile_speed args leg sign t)
  set_commanded speed
  lift (encode_speed can_id (speed * .fin (erpm_per_rad_s args.pole_pairs args.gear_ratio)))

/-- A pause between the moves makes each one easier to see. -/
def pause (index : Nat) : Tool K Unit :=
  if index = 0 then pure ()
  else do
    set_commanded (.fin 0.0)
    let command ← lift (encode_speed can_id (.fin 0))
    send_for bus (fun _ => pure command) can_id (supervise_latest args) (.fin 0.3)

def out_and_back (leg : Dbl K) (index : Nat) : Tool K Unit := do
  pause bus can_id args index
  each [1.0, -1.0] fun sign =>
    send_for bus (profile can_id args leg sign) can_id (supervise_latest args) leg

/-- Move a motor a few degrees out and back, then brake and release it. -/
def wiggle : Tool K Unit := do
  let leg ← lift (leg_time args)
  set_commanded (.fin 0.0)
  update fun s => { s with release_only := false }
  ensuring
    (handle (each (List.range args.repeat_.toNat) (out_and_back bus can_id args leg)) note_stop)
    (finish_move bus can_id)

end Wiggle

section Jog
variable (bus : Bus K) (can_id : Nat) (args : JogArgs K)

/-- `except KeyboardInterrupt` and `except MotorStopped` of `cmd_jog`, with its exit codes. -/
def end_jog : Exception K → Tool K Nat
  | .keyboard_interrupt => pure 0
  | .motor_stopped err => do
    update fun s => { s with release_only := err.release_only }
    pure 1
  | e => raise e

def show_status (status : Status K) : Tool K Unit :=
  lift (check_following args.toArgs status args.velocity)

variable [FloorRing K]

/-- The move of `cmd_jog`, from its command on; the exit code. -/
def jog_move (duration : Dbl K) : Tool K Nat := do
  let command ← lift (encode_speed can_id
    (args.velocity * .fin (erpm_per_rad_s args.pole_pairs args.gear_ratio)))
  set_commanded args.velocity
  update fun s => { s with release_only := false }
  open_socket bus
  ensuring
    (handle (do
      send_for bus (fun _ => pure command) can_id (show_status args) duration
      pure 0) end_jog)
    (finish_move bus can_id)

end Jog

end IotRobot.Tool
