import IotRobot.Lib.Dbl
import Mathlib.Algebra.Order.Floor.Defs
import Mathlib.Data.Fin.Basic
import Mathlib.Data.List.Nodup

/-!
# Joints of the hardware component, and what `on_init` accepts

`JointParams` holds the members of the plugin's `Joint` that `on_init` sets and
nothing changes afterwards, `Joint` those the callbacks change. A `Component`
cannot be built from parameters that `on_init` refuses: the conditions it checks
are fields. Positions, velocities and efforts are numbers of an ordered field in
exact arithmetic; a double that may be NaN or infinite is a `Dbl`.
-/

namespace IotRobot.Safe

open Lib

set_option autoImplicit false

variable {K : Type} [Field K] [LinearOrder K]

def M_PI : K := pi_double

/-- Status frame position unit in degrees. -/
def kDegPerCount : K := 0.1

/-- A zeroed joint must read within this of 0. -/
def kZeroToleranceDeg : K := 1

/-- Longest period one `write()` slews over, so a late cycle cannot become a jump. -/
def kMaxSlewPeriod : K := 1 / 20

/-- Instants are nanoseconds of the steady clock, durations in milliseconds. -/
def nsPerMs : Nat := 1000000

def kBrakePeriod : Nat := 20
def kActivationWait : Nat := 500

def HW_IF_POSITION : String := "position"
def HW_IF_VELOCITY : String := "velocity"
def HW_IF_EFFORT : String := "effort"

inductive Interface where
  | position
  | velocity
  | effort
  deriving DecidableEq

/-- The members of `Joint` that `on_init` and the export of the interfaces set.
`base_state` and `base_command` say which interfaces the upstream plugin exports
(an index of -1 in the source is `false`). -/
structure JointParams (K : Type) where
  name : String
  can_id : Nat
  direction : K
  enc_off : K
  kt : K
  gear_ratio : K
  zero_on_activate : Bool
  position_commanded : Bool
  has_position_limits : Bool
  min_position : Dbl K
  max_position : Dbl K
  max_velocity : K
  stall_effort : K
  stall_time : Nat
  base_state : Interface → Bool
  base_command : Interface → Bool

/-- What `parse_joint` and `position_command_limits` check. -/
structure JointParams.Valid (p : JointParams K) : Prop where
  direction : p.direction = 1 ∨ p.direction = -1
  gear_ratio : 0 < p.gear_ratio
  stall_effort : 0 ≤ p.stall_effort
  max_velocity : p.position_commanded = true → 0 < p.max_velocity
  limits : p.has_position_limits = true →
    ∃ lo hi : K, p.min_position = .fin lo ∧ p.max_position = .fin hi ∧ lo ≤ hi

/-- A component as `on_init` leaves it. -/
structure Component (K : Type) [Field K] [LinearOrder K] (n : Nat) where
  joint : Fin n → JointParams K
  status_timeout : Nat
  brake_time : Nat
  valid : ∀ i, (joint i).Valid
  can_ids : Function.Injective fun i => (joint i).can_id

/-- The members of `Joint` that the callbacks change, with the source's defaults. -/
structure Joint (K : Type) where
  position_claimed : Bool := false
  target : Dbl K := .nan
  releasing : Bool := false
  release_at : Nat := 0
  over_effort : Bool := false
  over_effort_since : Nat := 0
  has_status : Bool := false
  last_status : Nat := 0
  raw_position : Int := 0
  raw_current : Int := 0
  temperature : Int := 0
  fault : UInt8 := 0
  state_position : Dbl K := .nan
  state_velocity : Dbl K := .nan
  state_effort : Dbl K := .nan
  state_temperature : Dbl K := .nan
  command_position : Dbl K := .nan
  command_velocity : Dbl K := .nan
  command_effort : Dbl K := .nan

/-- Output position in the joint frame from the latest status frame, or NaN. -/
def measured_position (p : JointParams K) (joint : Joint K) : Dbl K :=
  if joint.has_status then
    .fin (p.direction * (joint.raw_position * kDegPerCount * M_PI / 180 - p.enc_off))
  else .nan

/-- Limits as the URDF and the ros2_control tag give them; their parsers deliver
finite positions, while the velocity limit is checked here. -/
structure JointLimits (K : Type) where
  has_position_limits : Bool
  min_position : K
  max_position : K
  has_velocity_limits : Bool
  max_velocity : Dbl K

structure ComponentInfo where
  name : String
  parameters : List (String × String)
  command_interfaces : List String
  state_interfaces : List String

/-- `HardwareInfo` with the parsed URDF: `getJointLimits` is `none` where the
joint has no `<limit>`. `base_state` and `base_command` are the interfaces the
upstream plugin exports for a joint. -/
structure HardwareInfo (K : Type) where
  name : String
  hardware_parameters : List (String × String)
  joints : List ComponentInfo
  limits : String → Option (JointLimits K)
  model : Option (String → Option (JointLimits K))
  base_state : String → Interface → Bool
  base_command : String → Interface → Bool

section Init

-- `std::stod` (value and characters used) and `std::stol`; `none` is an exception.
variable [FloorSemiring K] (stod : String → Option (Dbl K × Nat)) (stol : String → Option Int)

def parse_ms (parameters : List (String × String)) (name : String) (value : Nat)
    (owner : String) : Except String Nat :=
  match parameters.lookup name with
  | none => .ok value
  | some text =>
    match stol text with
    | some parsed =>
      if parsed ≤ 0 then
        .error (owner ++ ": parameter " ++ name ++ " must be a positive integer, got '" ++ text ++ "'")
      else .ok parsed.toNat
    | none =>
      .error (owner ++ ": parameter " ++ name ++ " must be a positive integer, got '" ++ text ++ "'")

def parse_double (parameters : List (String × String)) (name : String) (value : K)
    (owner : String) : Except String K :=
  match parameters.lookup name with
  | none => .ok value
  | some text =>
    match stod text with
    | some (.fin parsed, used) =>
      if used = text.utf8ByteSize then .ok parsed
      else .error (owner ++ ": parameter " ++ name ++ " must be a number, got '" ++ text ++ "'")
    | _ => .error (owner ++ ": parameter " ++ name ++ " must be a number, got '" ++ text ++ "'")

def parse_bool (parameters : List (String × String)) (name : String) (value : Bool)
    (owner : String) : Except String Bool :=
  match parameters.lookup name with
  | none => .ok value
  | some text =>
    let lower := text.toLower
    if lower = "true" ∨ lower = "1" then .ok true
    else if lower = "false" ∨ lower = "0" then .ok false
    else .error (owner ++ ": parameter " ++ name ++ " must be true or false, got '" ++ text ++ "'")

/-- The conditions of `JointParams.Valid` that `parse_joint` alone establishes:
it sets no limits. -/
structure JointParams.Parsed (p : JointParams K) : Prop where
  direction : p.direction = 1 ∨ p.direction = -1
  gear_ratio : 0 < p.gear_ratio
  stall_effort : 0 ≤ p.stall_effort
  limits : p.has_position_limits = false

def parse_joint (hardware : HardwareInfo K) (info : ComponentInfo) :
    Except String { p : JointParams K // p.Parsed } := do
  let parameters := info.parameters
  let can_id ← parse_double stod parameters "can_id" 0 info.name
  let kt ← parse_double stod parameters "kt" 0 info.name
  let gear_ratio ← parse_double stod parameters "gear_ratio" 1 info.name
  let enc_off ← parse_double stod parameters "enc_off" 0 info.name
  let direction ← parse_double stod parameters "direction" 1 info.name
  let zero_on_activate ← parse_bool parameters "zero_on_activate" false info.name
  let stall_effort ← parse_double stod parameters "stall_effort" 0 info.name
  let stall_time_ms ← parse_double stod parameters "stall_time_ms" 500 info.name
  if hd : direction = 1 ∨ direction = -1 then
    if hg : 0 < gear_ratio then
      if hs : stall_effort < 0 ∨ ¬ 0 < stall_time_ms then
        .error (info.name ++
          ": stall_effort must be 0 (off) or positive and stall_time_ms positive.")
      else
        match info.command_interfaces.find?
            (fun i => i ≠ HW_IF_POSITION ∧ i ≠ HW_IF_VELOCITY ∧ i ≠ HW_IF_EFFORT) with
        | some i => .error (info.name ++ ": unsupported command interface '" ++ i ++
            "' (position, velocity or effort)")
        | none =>
          match info.state_interfaces.find? (fun i => i ≠ HW_IF_POSITION ∧
              i ≠ HW_IF_VELOCITY ∧ i ≠ HW_IF_EFFORT ∧ i ≠ "temperature") with
          | some i => .error (info.name ++ ": unsupported state interface '" ++ i ++
              "' (position, velocity, effort or temperature)")
          | none =>
            .ok ⟨{ name := info.name
                   can_id := ⌊can_id⌋₊
                   direction := direction
                   enc_off := enc_off
                   kt := kt
                   gear_ratio := gear_ratio
                   zero_on_activate := zero_on_activate
                   position_commanded := info.command_interfaces.contains HW_IF_POSITION
                   has_position_limits := false
                   min_position := .ninf
                   max_position := .pinf
                   max_velocity := 0
                   stall_effort := stall_effort
                   stall_time := ⌊stall_time_ms⌋₊
                   base_state := hardware.base_state info.name
                   base_command := hardware.base_command info.name },
              { direction := hd
                gear_ratio := hg
                stall_effort := not_lt.mp (fun h => hs (Or.inl h))
                limits := rfl }⟩
    else .error (info.name ++
      ": gear_ratio must be positive. To reverse a motor set direction to -1.")
  else .error (info.name ++ ": direction must be 1 or -1, got '" ++
    (info.parameters.lookup "direction").getD "" ++ "'")

/-- The `<limit>` of the URDF narrowed by the limits of the ros2_control tag. -/
def narrowed (limits narrower : JointLimits K) : JointLimits K :=
  let limits :=
    if narrower.has_position_limits then
      if limits.has_position_limits then
        { limits with
          min_position := max limits.min_position narrower.min_position
          max_position := min limits.max_position narrower.max_position }
      else
        { limits with
          min_position := narrower.min_position
          max_position := narrower.max_position
          has_position_limits := true }
    else limits
  if narrower.has_velocity_limits then
    { limits with max_velocity := limits.max_velocity.minimum narrower.max_velocity }
  else limits

/-- Limits that pass the checks of `position_command_limits`. -/
structure CommandLimits (K : Type) [Field K] [LinearOrder K] where
  limits : JointLimits K
  max_velocity : K
  velocity_pos : 0 < max_velocity
  ordered : limits.has_position_limits = true → limits.min_position ≤ limits.max_position

def position_command_limits (model : String → Option (JointLimits K))
    (hardware : HardwareInfo K) (joint_name : String) : Except String (CommandLimits K) :=
  match model joint_name with
  | none => .error ("Joint " ++ joint_name ++
      " has a position command interface but no <limit> in the URDF.")
  | some limits =>
    let limits := match hardware.limits joint_name with
      | some narrower => narrowed limits narrower
      | none => limits
    match limits.has_velocity_limits, limits.max_velocity with
    | true, .fin v =>
      if hv : 0 < v then
        if hl : limits.has_position_limits = true ∧ limits.max_position < limits.min_position then
          .error ("Joint " ++ joint_name ++ ": lower position limit is above the upper limit.")
        else
          .ok { limits := limits
                max_velocity := v
                velocity_pos := hv
                ordered := fun h => not_lt.mp (fun hlt => hl ⟨h, hlt⟩) }
      else .error ("Joint " ++ joint_name ++
        " has a position command interface but no positive velocity limit; " ++
        "set velocity=\"...\" in its URDF <limit>.")
    | _, _ => .error ("Joint " ++ joint_name ++
        " has a position command interface but no positive velocity limit; " ++
        "set velocity=\"...\" in its URDF <limit>.")

abbrev ParsedJoints (K : Type) [Field K] [LinearOrder K] :=
  { ps : List { p : JointParams K // p.Parsed } // (ps.map (fun p => p.1.can_id)).Nodup }

/-- The first loop of `on_init`: every joint parsed, no CAN ID given twice. -/
def parse_joints (hardware : HardwareInfo K) :
    List ComponentInfo → ParsedJoints K → Except String (ParsedJoints K)
  | [], done => .ok done
  | info :: rest, done => do
    let p ← parse_joint stod hardware info
    if h : p.1.can_id ∈ done.1.map (fun q => q.1.can_id) then
      .error ("Joints " ++ ((done.1.find? (fun q => q.1.can_id = p.1.can_id)).map
        (fun q => q.1.name)).getD "" ++ " and " ++ p.1.name ++ " both have CAN ID " ++
        toString p.1.can_id ++ ".")
    else
      parse_joints hardware rest
        ⟨done.1 ++ [p], by
          rw [List.map_append, List.nodup_append]
          refine ⟨done.2, List.nodup_singleton _, ?_⟩
          intro a ha b hb he
          simp only [List.map_cons, List.map_nil, List.mem_singleton] at hb
          exact h (hb ▸ he ▸ ha)⟩

/-- The second loop of `on_init` for one joint. -/
def limit_joint (model : Option (String → Option (JointLimits K))) (hardware : HardwareInfo K)
    (p : { p : JointParams K // p.Parsed }) :
    Except String { q : JointParams K // q.Valid ∧ q.can_id = p.1.can_id } :=
  if hp : p.1.position_commanded = true then
    match model with
    | none => .error "Could not parse the robot description to read the joint limits."
    | some model => do
      let l ← position_command_limits model hardware p.1.name
      .ok ⟨{ p.1 with
              has_position_limits := l.limits.has_position_limits
              min_position :=
                if l.limits.has_position_limits then .fin l.limits.min_position else .ninf
              max_position :=
                if l.limits.has_position_limits then .fin l.limits.max_position else .pinf
              max_velocity := l.max_velocity },
        { direction := p.2.direction
          gear_ratio := p.2.gear_ratio
          stall_effort := p.2.stall_effort
          max_velocity := fun _ => l.velocity_pos
          limits := fun h => ⟨l.limits.min_position, l.limits.max_position,
            if_pos h, if_pos h, l.ordered h⟩ }, rfl⟩
  else
    .ok ⟨p.1,
      { direction := p.2.direction
        gear_ratio := p.2.gear_ratio
        stall_effort := p.2.stall_effort
        max_velocity := fun h => absurd h hp
        limits := fun h => absurd (p.2.limits.symm.trans h) (by decide) }, rfl⟩

def limit_joints (model : Option (String → Option (JointLimits K))) (hardware : HardwareInfo K) :
    (ps : List { p : JointParams K // p.Parsed }) →
    Except String { qs : List { q : JointParams K // q.Valid } //
      qs.map (fun q => q.1.can_id) = ps.map (fun p => p.1.can_id) }
  | [] => .ok ⟨[], rfl⟩
  | p :: ps => do
    let q ← limit_joint model hardware p
    let qs ← limit_joints model hardware ps
    .ok ⟨⟨q.1, q.2.1⟩ :: qs.1, by simp [q.2.2, qs.2]⟩

/-- `on_init` after the upstream one has returned SUCCESS. -/
def on_init (hardware : HardwareInfo K) : Except String ((n : Nat) × Component K n) := do
  let ps ← parse_joints stod hardware hardware.joints ⟨[], List.nodup_nil⟩
  let qs ← limit_joints hardware.model hardware ps.1
  let status_timeout ←
    parse_ms stol hardware.hardware_parameters "status_timeout_ms" 100 hardware.name
  let brake_time ← parse_ms stol hardware.hardware_parameters "brake_time_ms" 300 hardware.name
  .ok ⟨qs.1.length,
    { joint := fun i => (qs.1.get i).1
      status_timeout := status_timeout
      brake_time := brake_time
      valid := fun i => (qs.1.get i).2
      can_ids := by
        have hn : (qs.1.map fun q => q.1.can_id).Nodup := by rw [qs.2]; exact ps.2
        intro i j hij
        have hinj := List.nodup_iff_injective_get.mp hn
        have hcast := @hinj (i.cast (by simp)) (j.cast (by simp)) (by simpa using hij)
        exact Fin.cast_injective _ hcast }⟩

end Init

end IotRobot.Safe
