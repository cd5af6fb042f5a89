import IotRobot.Can.Deadlines
import IotRobot.Tool.MotorConfig

/-!
# The safety stop

`cubemars_tool stop` is what the service runs after every stop of the robot. It
stops the motors of motors.yaml and every other motor that it hears. What
`load` raises besides `MotorConfigError` passes through `load_motors` and ends
the command before it has listened or sent anything.
-/

namespace IotRobot.Tool

open Lib Prog Can

set_option autoImplicit false

/-- What the kernel says of a network interface. -/
structure Link where
  /-- Its `interface_type`; `none` if the interface does not exist. -/
  link_type : Option Nat
  /-- Its flags, if the request for them succeeds. -/
  flags : Option Nat

structure StopArgs (K : Type) where
  motors : Option String := none
  ids : List Nat := []
  brake_time : Dbl K
  listen : Dbl K

section Program
variable {O K : Type}

/-- The `MotorConfig` of `--motors` or of the default path. Without `required` a broken or
missing file gives `none`. -/
def load_motors (m : Machine O) (motors : Option String) (required : Bool) :
    Except (Exception K) (Option MotorConfig) :=
  match load m motors false with
  | .ok config => .ok (some config)
  | .error (.motor_config_error message) =>
    if required then .error (.motor_config_error message) else .ok none
  | .error e => .error e

/-- Whether the interface is a CAN interface that is up. -/
def can_link (link : Link) : Except (Exception K) Bool :=
  if link.link_type ≠ some ARPHRD_CAN then .ok false
  else
    match link.flags with
    | some flags => .ok (flags &&& IFF_UP ≠ 0)
    | none => .error .os_error

def known_ids : Option MotorConfig → List Nat
  | some config => config.motors.map Motor.can_id
  | none => []

variable [Field K] [LinearOrder K]

/-- `known + sorted(set(heard.status) - set(known))`. -/
def with_heard (known : List Nat) (heard : Heard K) : List Nat :=
  known ++ (heard.status.keys.filter fun id => id ∉ known).mergeSort

variable [FloorRing K]

/-- The motors to stop. -/
def ids_to_stop (bus : Bus K) (m : Machine O) (args : StopArgs K) : Tool K (List Nat) :=
  if args.ids ≠ [] then pure args.ids
  else do
    let config ← lift (load_motors m args.motors false)
    let heard ← listen bus args.listen [] true
    pure (with_heard (known_ids config) heard)

/-- Brake and release the motors on a socket of their own. -/
def stop_ids (bus : Bus K) (args : StopArgs K) (can_ids : List Nat) : Tool K Int :=
  if can_ids = [] then pure 0
  else do
    open_socket bus
    stop_motors bus can_ids args.brake_time default_period
    pure 0

def cmd_stop (bus : Bus K) (link : Link) (m : Machine O) (args : StopArgs K) : Tool K Int := do
  let up ← lift (can_link link)
  if up then do
    let can_ids ← ids_to_stop bus m args
    stop_ids bus args can_ids
  else pure 0

end Program

def Link.IsUp (link : Link) : Prop :=
  link.link_type = some ARPHRD_CAN ∧ ∃ flags, link.flags = some flags ∧ flags &&& IFF_UP ≠ 0

/-- The motors of a file that is valid. -/
def valid_motors {K : Type} : Except (Exception K) MotorConfig → List Nat
  | .ok config => config.motors.map Motor.can_id
  | .error _ => []

section Purpose
variable {O K : Type} [Field K]

/-- The command receives some frames, sends the stop sequence to the known motors and to
those that the frames report, and returns 0. -/
def Stops (known : List Nat) (o : Outcome (Exception K) Int) (s : Session K) : Prop :=
  ∃ frames can_ids k, o = .returned 0 ∧
    s.trace = frames.map .received ++ (stop_sequence can_ids k).map .sent ∧
    ∀ id, id ∈ can_ids ↔ id ∈ known ∨ Reported K frames id

/-- Whatever motors.yaml is: `load` returns or raises `MotorConfigError`, and on an
interface that is up and works, the command stops the motors once its loops are followed
for enough rounds. -/
def SafetyStop (K : Type) [Field K] [LinearOrder K] [FloorRing K] (m : Machine O)
    (motors : Option String) : Prop :=
  Settled (load m motors false : Except (Exception K) MotorConfig) ∧
  ∀ (bus : Bus K) (link : Link) (brake_time listen : K) (start : Session K),
    link.IsUp → bus.Working →
      ∃ rounds, ∀ more, rounds ≤ more →
        let run := cmd_stop { bus with rounds := more } link m
          { motors := motors, brake_time := .fin brake_time, listen := .fin listen }
          { start with trace := [] }
        Stops (valid_motors (load m motors false : Except (Exception K) MotorConfig)) run.1 run.2

end Purpose

section Link
variable {K : Type}

theorem can_link_up {link : Link} (h : link.IsUp) :
    (can_link link : Except (Exception K) Bool) = .ok true := by
  obtain ⟨htype, flags, hflags, hup⟩ := h
  unfold can_link
  rw [if_neg (not_not.mpr htype), hflags]
  exact congrArg _ (decide_eq_true hup)

theorem load_motors_settled {O : Type} {m : Machine O} {motors : Option String}
    (h : Settled (load m motors false : Except (Exception K) MotorConfig)) :
    ∃ config, (load_motors m motors false : Except (Exception K) _) = .ok config ∧
      known_ids config = valid_motors (load m motors false : Except (Exception K) MotorConfig) := by
  unfold load_motors
  rcases h with ⟨config, h⟩ | ⟨message, h⟩
  · rw [h]
    exact ⟨some config, rfl, rfl⟩
  · rw [h]
    exact ⟨none, rfl, rfl⟩

theorem mem_with_heard [Field K] {known : List Nat} {heard : Heard K} {id : Nat} :
    id ∈ with_heard known heard ↔ id ∈ known ∨ id ∈ heard.status.keys := by
  unfold with_heard
  rw [List.mem_append, List.mem_mergeSort, List.mem_filter]
  by_cases hid : id ∈ known
  · exact iff_of_true (.inl hid) (.inl hid)
  · simp [hid]

end Link

section Run
variable {O K : Type} [Field K] [LinearOrder K] [IsStrictOrderedRing K] [FloorRing K]
  {bus : Bus K} {t : List (Event K)}

omit [FloorRing K] in
theorem default_period_pos : (0 : K) < default_period := by
  unfold default_period
  norm_num

/-- On a working bus the motors are braked and released. -/
theorem stop_ids_sends (hworking : bus.Working) {args : StopArgs K} {brake_time deadline : K}
    (hbrake : args.brake_time = .fin brake_time) (can_ids : List Nat) (r : Nat)
    (hdeadline : bus.clock.reading r + brake_time ≤ deadline)
    (hrounds : bus.clock.reach deadline ≤ bus.rounds) :
    Triple (fun s => s.trace = t ∧ s.readings ≤ r) (stop_ids bus args can_ids)
      fun o s => ∃ k, o = .returned 0 ∧ s.trace = t ++ (stop_sequence can_ids k).map .sent := by
  unfold stop_ids
  by_cases hnone : can_ids = []
  · rw [if_pos hnone, hnone]
    rintro s ⟨rfl, -⟩
    exact ⟨0, rfl, (List.append_nil s.trace).symm⟩
  · rw [if_neg hnone, hbrake]
    refine open_rule hworking (fun _ h => h) ?_
    refine bind_rule (stop_motors_stops hworking hnone default_period_pos hrounds hdeadline)
      (fun _ => ?_) ⟨?_, ?_⟩
    · rintro s ⟨k, -, htrace⟩
      exact ⟨k, rfl, htrace⟩
    · rintro e s ⟨k, h, -⟩
      cases h
    · rintro s ⟨k, h, -⟩
      cases h

omit [FloorRing K] in
/-- The motors to stop are those of the file and those heard while listening. -/
theorem ids_to_stop_hears (hworking : bus.Working) {m : Machine O} {args : StopArgs K}
    {listen deadline : K} (hids : args.ids = []) (hlisten : args.listen = .fin listen)
    (hsettled : Settled (load m args.motors false : Except (Exception K) MotorConfig)) (r : Nat)
    (hdeadline : bus.clock.reading r + listen = deadline)
    (hrounds : bus.clock.reach deadline ≤ bus.rounds) :
    Triple (fun s => s.trace = t ∧ s.readings = r) (ids_to_stop bus m args)
      fun o s => s.readings ≤ max (r + 1) (bus.clock.reach deadline) + 2 ∧
        ∃ heard, Collected t heard s ∧ o = .returned (with_heard
          (valid_motors (load m args.motors false : Except (Exception K) MotorConfig)) heard) := by
  obtain ⟨config, hconfig, hknown⟩ := load_motors_settled hsettled
  unfold ids_to_stop
  rw [if_neg (not_not.mpr hids), hconfig, lift_ok_bind, hlisten, ← hknown]
  refine bind_rule (R := fun o s => Listened t o s ∧
    s.readings ≤ max (r + 1) (bus.clock.reach deadline) + 2)
    (listen_hears hworking hdeadline hrounds) (fun heard => ?_) ⟨?_, ?_⟩
  · rintro s ⟨⟨_, hheard, hcollected⟩, hreadings⟩
    cases hheard
    exact ⟨hreadings, heard, hcollected, rfl⟩
  · rintro e s ⟨⟨_, h, -⟩, -⟩
    cases h
  · rintro s ⟨⟨_, h, -⟩, -⟩
    cases h

/-- With a contained file the command stops the motors. -/
theorem cmd_stop_stops (hworking : bus.Working) {link : Link} (hup : link.IsUp) {m : Machine O}
    {args : StopArgs K} {listen brake_time heard_by stopped_by : K} (hids : args.ids = [])
    (hlisten : args.listen = .fin listen) (hbrake : args.brake_time = .fin brake_time)
    (hsettled : Settled (load m args.motors false : Except (Exception K) MotorConfig)) (r : Nat)
    (hheard : bus.clock.reading r + listen = heard_by)
    (hstopped : bus.clock.reading (max (r + 1) (bus.clock.reach heard_by) + 2) + brake_time =
      stopped_by)
    (hrounds : max (bus.clock.reach heard_by) (bus.clock.reach stopped_by) ≤ bus.rounds) :
    Triple (fun s => s.trace = [] ∧ s.readings = r) (cmd_stop bus link m args)
      (Stops (valid_motors (load m args.motors false : Except (Exception K) MotorConfig))) := by
  unfold cmd_stop
  rw [can_link_up hup, lift_ok_bind, if_pos rfl]
  have hlistens := ids_to_stop_hears (t := []) hworking hids hlisten hsettled r hheard
    (le_of_max_le_left hrounds)
  refine bind_rule hlistens (fun can_ids => ?_) ⟨?_, ?_⟩
  · rintro s ⟨hreadings, heard, ⟨frames, htrace, hkeys⟩, hids⟩
    cases hids
    obtain ⟨k, hreturned, hsent⟩ := stop_ids_sends hworking hbrake _ _ hstopped.le
      (le_of_max_le_right hrounds) s ⟨htrace, hreadings⟩
    refine ⟨frames, _, k, hreturned, hsent, fun id => ?_⟩
    rw [mem_with_heard, hkeys]
  · rintro e s ⟨-, _, -, h⟩
    cases h
  · rintro s ⟨-, _, -, h⟩
    cases h

end Run

section Silence
variable {O K : Type} [Field K] [LinearOrder K] [FloorRing K] {m : Machine O}

/-- What `load_motors` does not contain ends the command on an interface that is up, with
no frame sent. -/
theorem cmd_stop_silenced (bus : Bus K) {link : Link} (hup : link.IsUp) {args : StopArgs K}
    (hids : args.ids = [])
    (hloose : ¬ Settled (load m args.motors false : Except (Exception K) MotorConfig))
    (start : Session K) :
    ∃ e, (∀ message, e ≠ .motor_config_error message) ∧
      load m args.motors false = .error e ∧
      cmd_stop bus link m args start = (.raised e, start) := by
  cases hload : (load m args.motors false : Except (Exception K) MotorConfig) with
  | ok config => exact absurd (.inl ⟨config, hload⟩) hloose
  | error e =>
    have hother : ∀ message, e ≠ .motor_config_error message := by
      rintro message rfl
      exact hloose (.inr ⟨message, hload⟩)
    have hraises : load_motors m args.motors false = .error e := by
      unfold load_motors
      rw [hload]
      split
      · next h => cases h
      · next message h =>
        injection h with h
        exact absurd h (hother message)
      · next h =>
        injection h with h
        rw [h]
    refine ⟨e, hother, rfl, ?_⟩
    unfold cmd_stop ids_to_stop
    rw [can_link_up hup, lift_ok_bind, if_pos rfl, if_neg (not_not.mpr hids), hraises,
      lift_error_bind]
    rfl

end Silence

section SafetyStop
variable {O K : Type} [Field K] [LinearOrder K] [IsStrictOrderedRing K] [FloorRing K]
  {m : Machine O} {motors : Option String}

/-- The safety stop does not depend on motors.yaml exactly as long as what can be raised
over the file is contained. -/
theorem safety_stop_iff (m : Machine O) (motors : Option String) :
    SafetyStop K m motors ↔ ∀ file_path, motors_path m motors = .ok file_path →
      FileContained m false (m.file file_path) := by
  unfold SafetyStop
  rw [load_settled (K := K)]
  refine ⟨fun h => h.1, fun hcontained => ⟨hcontained, ?_⟩⟩
  intro bus link brake_time listen start hup hworking
  let heard_by := bus.clock.reading start.readings + listen
  let stopped_by :=
    bus.clock.reading (max (start.readings + 1) (bus.clock.reach heard_by) + 2) + brake_time
  refine ⟨max (bus.clock.reach heard_by) (bus.clock.reach stopped_by), fun more hmore => ?_⟩
  have hworking' : { bus with rounds := more }.Working := ⟨hworking.calls, hworking.receives⟩
  exact cmd_stop_stops hworking' hup rfl rfl rfl (load_settled.mpr hcontained) start.readings rfl rfl hmore _ ⟨rfl, rfl⟩

end SafetyStop

/-- The bytes of an ASCII text. -/
def ascii_bytes (text : String) : List UInt8 := text.toList.map fun c => UInt8.ofNat c.toNat

def ascii (b : List UInt8) : Option String :=
  if b.all (· < 128) then some (String.ofList (b.map fun c => Char.ofNat c.toNat)) else none

/-- A mapping with a sequence as its key. -/
def sequence_key_text : String := "? [a]\n: 1\n"

def sequence_key : Node :=
  .mapping "line 1, column 1" [(.sequence "line 1, column 3" [.scalar "line 1, column 4" "str" "a"],
    .scalar "line 2, column 3" "int" "1")]

/-- PyYAML as far as the two documents need it. -/
def small_yaml : PyYaml Unit where
  compose text :=
    if text = sequence_key_text then .ok (some sequence_key)
    else .error (.yaml_error "could not find expected ':'")
  scalar tag value := .ok (if tag = "int" then .int (value.toInt?.getD 0) else .str value)
  same a b := a == b
  text
    | .str s => some s
    | .int i => some (toString i)
    | _ => some "None"
  repr _ := some "..."

/-- A machine on which every file holds these bytes, or cannot be read. -/
def machine_with (file : File) : Machine Unit where
  file _ := file
  decode := ascii
  py := small_yaml
  default_path := .ok "/opt/ros/share/iot_robot_bringup/config/motors.yaml"

/-- A missing file does not touch the stop. -/
theorem safety_stop_missing :
    SafetyStop Rat (machine_with (.unreadable "No such file or directory")) (some "motors.yaml") :=
  (safety_stop_iff _ _).mpr fun _ _ => trivial

/-- A sequence as a key silences it. -/
theorem sequence_key_silences_stop :
    ¬ SafetyStop Rat (machine_with (.bytes (ascii_bytes sequence_key_text)))
      (some "motors.yaml") := by
  rintro ⟨hsettled, -⟩
  have hraises : load (K := Rat) (machine_with (.bytes (ascii_bytes sequence_key_text)))
      (some "motors.yaml") false = .error .type_error := by
    decide +kernel
  rw [hraises] at hsettled
  obtain ⟨message, h⟩ := settled_error.mp hsettled
  cases h

end IotRobot.Tool
