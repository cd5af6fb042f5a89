import IotRobot.Safe.Joint
import IotRobot.Tool.Accepted

/-!
# The robot description

`iot_robot.urdf.xacro` as xacro expands it: the two `ros2_control` tags with the CAN IDs and
directions of motors.yaml, and the limits of `robot.urdf.xacro`. The hardware component gets each tag
as a `HardwareInfo`.
-/

namespace IotRobot.Bringup

open Lib Tool

set_option autoImplicit false

/-- A `ros2_control` tag. For the joints in `unlimited` the limiter of the controller manager is
switched off. -/
structure Ros2Control where
  name : String
  plugin : String
  hardware_parameters : List (String × String)
  joints : List Safe.ComponentInfo
  unlimited : List String

/-- The arguments of the xacro file. -/
structure Arguments where
  mock : Bool := false
  can_interface : String := "can0"
  motors : String
  gizmo_mode : String := "can"

section Expand
variable {O : Type} (py : PyYaml O) (motors_file : String)

/-- `motors_table`; `xacro.fatal` raises. -/
def motors_table (motors_yaml : Value O) : Except String (Items O) :=
  match motors_yaml with
  | .dict data =>
    match get_item data "motors" with
    | some (.dict table) => .ok table
    | _ => .error (motors_file ++ ": expected a top-level motors: mapping with one entry per joint")
  | _ => .error (motors_file ++ ": expected a top-level motors: mapping with one entry per joint")

def entry (table : Items O) (joint : String) : Except String (Items O) :=
  match get_item table joint with
  | some (.dict entry) => .ok entry
  | _ => .error (motors_file ++ ": no entry for " ++ joint ++ " under motors: (docs/todo.md)")

/-- The property `can_id`, as the parameter shows it. -/
def can_id (entry : Items O) (joint : String) : Except String String :=
  match get_item entry "can_id" with
  | some (.atom (.int i)) =>
    if 1 ≤ i ∧ i ≤ 254 then .ok (toString i)
    else .error (motors_file ++ ": " ++ joint ++ " needs can_id: an integer from 1 to 254")
  | _ => .error (motors_file ++ ": " ++ joint ++ " needs can_id: an integer from 1 to 254")

/-- The property `direction`. A number that is no integer may equal 1 or -1 as well. -/
def direction (entry : Items O) (joint : String) : Except String String :=
  match get_item entry "direction" with
  | some (.atom (.int i)) =>
    if i = 1 ∨ i = -1 then .ok (toString i)
    else .error (motors_file ++ ": " ++ joint ++ " needs direction: 1 or -1")
  | some (.atom (.other o)) =>
    if py.same (.other o) (.int 1) ∨ py.same (.other o) (.int (-1)) then
      .ok ((py.text (.other o)).getD "")
    else .error (motors_file ++ ": " ++ joint ++ " needs direction: 1 or -1")
  | _ => .error (motors_file ++ ": " ++ joint ++ " needs direction: 1 or -1")

def zero_on_start (entry : Items O) : Bool :=
  match get_item entry "zero_on_start" with
  | some (.atom (.bool b)) => b
  | _ => false

/-- `ak45_10_params`: the parameters, and the entry that they come from. -/
def ak45_10_params (motors_yaml : Except String (Value O)) (joint : String) :
    Except String (List (String × String) × Items O) := do
  let table ← motors_table motors_file (← motors_yaml)
  let entry ← entry motors_file table joint
  let can_id ← can_id motors_file entry joint
  let direction ← direction py motors_file entry joint
  pure ([("can_id", can_id), ("direction", direction), ("pole_pairs", "14"), ("gear_ratio", "10"),
    ("kt", "0.127")], entry)

/-- The state interfaces; the mock has no effort. -/
def state_interfaces (mock : Bool) : List String :=
  ["position", "velocity"] ++ if mock then [] else ["effort"]

def wheel (mock : Bool) (motors_yaml : Except String (Value O)) (joint : String) :
    Except String Safe.ComponentInfo :=
  if mock then .ok ⟨joint, [], ["velocity"], state_interfaces mock⟩
  else do
    let (parameters, _) ← ak45_10_params py motors_file motors_yaml joint
    pure ⟨joint, parameters, ["velocity"], state_interfaces mock⟩

def gizmo_joint (mock : Bool) (motors_yaml : Except String (Value O)) (joint : String) :
    Except String Safe.ComponentInfo :=
  if mock then .ok ⟨joint, [], ["position"], state_interfaces mock⟩
  else do
    let (parameters, entry) ← ak45_10_params py motors_file motors_yaml joint
    pure ⟨joint, parameters ++
      [("zero_on_activate", if zero_on_start entry then "true" else "false"), ("stall_effort", "1.0"),
        ("stall_time_ms", "500")], ["position"], state_interfaces mock⟩

/-- The plugin and the hardware parameters of a component with motors. -/
def cubemars_hardware (can_interface : String) : String × List (String × String) :=
  ("cubemars_hardware_safe/SafeCubeMarsSystemHardware",
    [("can_interface", can_interface), ("status_timeout_ms", "100"), ("brake_time_ms", "300")])

def wheel_system (a : Arguments) (motors_yaml : Except String (Value O)) : Except String Ros2Control := do
  let joints ← WHEEL_JOINTS.mapM (wheel py a.motors a.mock motors_yaml)
  let (plugin, hardware_parameters) :=
    if a.mock then ("mock_components/GenericSystem", [("calculate_dynamics", "true")])
    else cubemars_hardware a.can_interface
  pure ⟨"WheelSystem", plugin, hardware_parameters, joints, []⟩

def gizmo_system (a : Arguments) (motors_yaml : Except String (Value O)) : Except String Ros2Control := do
  let joints ← GIZMO_JOINTS.mapM (gizmo_joint py a.motors a.mock motors_yaml)
  let (plugin, hardware_parameters) :=
    if a.mock then ("mock_components/GenericSystem", []) else cubemars_hardware a.can_interface
  pure ⟨"GizmoSystem", plugin, hardware_parameters, joints, if a.mock then [] else GIZMO_JOINTS⟩

/-- The `ros2_control` tags of the description. `motors_yaml` is what loading the file gives. -/
def iot_robot (a : Arguments) (motors_yaml : Except String (Value O)) :
    Except String (List Ros2Control) :=
  if a.gizmo_mode = "can" then do
    let wheels ← wheel_system py a motors_yaml
    let gizmo ← gizmo_system py a motors_yaml
    pure [wheels, gizmo]
  else if a.gizmo_mode = "fixed" then do
    let wheels ← wheel_system py a motors_yaml
    pure [wheels]
  else .error ("gizmo_mode must be can or fixed, got: " ++ a.gizmo_mode)

end Expand

section Hardware
variable (K : Type) [Field K]

/-- The `<limit>` tags of `robot.urdf.xacro`; a continuous joint has no position limits. -/
def urdf_limits (joint : String) : Option (Safe.JointLimits K) :=
  if joint = "gizmo_yaw_joint" then some ⟨true, -0.785398, 0.785398, true, .fin 1⟩
  else if joint = "gizmo_pitch_joint" then some ⟨true, -0.785398, 0, true, .fin 1⟩
  else if joint ∈ WHEEL_JOINTS then some ⟨false, 0, 0, true, .fin 19.0⟩
  else none

variable {K}

/-- What the controller manager hands to the component of a tag. `limits` is what its parser makes of
the limits, and `exports` the interfaces that the upstream plugin exports. -/
def hardware_info (limits : String → Option (Safe.JointLimits K))
    (exports : String → Safe.Interface → Bool × Bool) (system : Ros2Control) : Safe.HardwareInfo K where
  name := system.name
  hardware_parameters := system.hardware_parameters
  joints := system.joints
  limits := limits
  model := some (urdf_limits K)
  base_state joint interface := (exports joint interface).1
  base_command joint interface := (exports joint interface).2

/-- Where the limiter is switched off, the parser clears every limit of the joint. -/
def Clears (limits : Ros2Control → String → Option (Safe.JointLimits K)) : Prop :=
  ∀ system, ∀ joint ∈ system.unlimited, ∀ l, limits system joint = some l →
    l.has_position_limits = false ∧ l.has_velocity_limits = false

/-- `std::stod` and `std::stol` read the numbers that the description writes. -/
structure Reads (stod : String → Option (Dbl K × Nat)) (stol : String → Option Int) : Prop where
  int : ∀ i : Int, -1 ≤ i → i ≤ 500 → stod (toString i) = some (.fin i, (toString i).utf8ByteSize)
  kt : stod "0.127" = some (.fin 0.127, 5)
  stall_effort : stod "1.0" = some (.fin 1, 3)
  long : ∀ i : Int, 0 < i → i ≤ 500 → stol (toString i) = some i

end Hardware

end IotRobot.Bringup
