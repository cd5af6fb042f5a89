import IotRobot.Tool.Yaml

/-!
# motors.yaml

`load` reads and validates the file with the CAN IDs of the motors. Validation
collects every problem it finds; a problem keeps the value it is about, and
`Problem.text` is the line that the error shows for it.
-/

namespace IotRobot.Tool

open Lib Can

set_option autoImplicit false

def WHEEL_JOINTS : List String := ["wheel_joint_left", "wheel_joint_right"]
def GIZMO_JOINTS : List String := ["gizmo_yaw_joint", "gizmo_pitch_joint"]
def JOINTS : List String := WHEEL_JOINTS ++ GIZMO_JOINTS
def MIN_CAN_ID : Int := 1
def MAX_CAN_ID : Int := 254
def KEYS : List String := ["can_id", "direction", "zero_on_start"]

structure Motor where
  joint : String
  can_id : Nat
  direction : Int
  zero_on_start : Bool
  deriving DecidableEq

/-- The motors are in file order. -/
structure MotorConfig where
  path : String
  motors : List Motor
  deriving DecidableEq

section Validation
variable {O : Type}

/-- One entry of the error list. -/
inductive Problem (O : Type) where
  | unknown_top_level (key : Atom O)
  | unknown_joint (joint : Atom O)
  | no_mapping (joint : String)
  | unknown_key (joint : String) (key : Atom O)
  | can_id_missing (joint : String)
  | can_id_invalid (joint : String) (got : Value O)
  | direction_missing (joint : String)
  | direction_invalid (joint : String) (got : Value O)
  | zero_on_start_invalid (joint : String) (got : Value O)
  | zero_on_start_wheel (joint : String)
  | no_entry (joint : String)
  | same_can_id (can_id : Nat) (first second : String)

/-- The line for a problem, unless it shows an integer too long to print. -/
def Problem.text (py : PyYaml O) : Problem O → Option String
  | .unknown_top_level key =>
    (py.text key).map fun key => s!"unknown top-level key '{key}' (only 'motors' is allowed)"
  | .unknown_joint joint =>
    (py.text joint).map fun joint =>
      s!"unknown joint '{joint}'; the joints are " ++ ", ".intercalate JOINTS
  | .no_mapping joint => some s!"{joint}: expected a mapping with can_id and direction"
  | .unknown_key joint key =>
    (py.text key).map fun key =>
      s!"{joint}: unknown key '{key}' (allowed: " ++ ", ".intercalate KEYS ++ ")"
  | .can_id_missing joint => some s!"{joint}: can_id is missing"
  | .can_id_invalid joint got =>
    (py.repr got).map fun got =>
      s!"{joint}: can_id must be an integer from {MIN_CAN_ID} to {MAX_CAN_ID}, got {got}"
  | .direction_missing joint => some s!"{joint}: direction is missing (1 or -1)"
  | .direction_invalid joint got =>
    (py.repr got).map fun got => s!"{joint}: direction must be 1 or -1, got {got}"
  | .zero_on_start_invalid joint got =>
    (py.repr got).map fun got => s!"{joint}: zero_on_start must be true or false, got {got}"
  | .zero_on_start_wheel joint =>
    some s!"{joint}: zero_on_start applies to the gizmo joints only"
  | .no_entry joint => some s!"no entry for {joint}"
  | .same_can_id can_id first second =>
    some (s!"CAN ID {can_id} is given to both {first} and {second}; " ++
      "every motor needs its own ID")

/-- The items of a dictionary. -/
abbrev Items (O : Type) := List (Atom O × Value O)

def Atom.is_str (a : Atom O) (s : String) : Bool :=
  match a with
  | .str t => t == s
  | _ => false

/-- `key in names`. -/
def Atom.one_of (a : Atom O) (names : List String) : Bool := names.any a.is_str

/-- `items.get(key)`. -/
def get_item (items : Items O) (key : String) : Option (Value O) :=
  (items.find? fun item => item.1.is_str key).map Prod.snd

/-- `entry.get("can_id")` checked: the ID, or the problem with it. -/
def parse_can_id (joint : String) (entry : Items O) : Problem O ⊕ Nat :=
  match get_item entry "can_id" with
  | none | some (.atom .none_) => .inl (.can_id_missing joint)
  | some (.atom (.int i)) =>
    if MIN_CAN_ID ≤ i ∧ i ≤ MAX_CAN_ID then .inr i.toNat
    else .inl (.can_id_invalid joint (.atom (.int i)))
  | some got => .inl (.can_id_invalid joint got)

def parse_direction (joint : String) (entry : Items O) : Problem O ⊕ Int :=
  match get_item entry "direction" with
  | none | some (.atom .none_) => .inl (.direction_missing joint)
  | some (.atom (.int i)) =>
    if i = 1 ∨ i = -1 then .inr i else .inl (.direction_invalid joint (.atom (.int i)))
  | some got => .inl (.direction_invalid joint got)

def parse_zero_on_start (joint : String) (entry : Items O) : Problem O ⊕ Bool :=
  match get_item entry "zero_on_start" with
  | none => .inr false
  | some (.atom (.bool b)) =>
    if b ∧ joint ∉ GIZMO_JOINTS then .inl (.zero_on_start_wheel joint) else .inr b
  | some got => .inl (.zero_on_start_invalid joint got)

/-- `_parse_motor`: the problems of one entry, and its motor if there are none. -/
def parse_motor (joint : String) (entry : Value O) : List (Problem O) × Option Motor :=
  match entry with
  | .dict items =>
    let unknown := (items.map Prod.fst).filter fun key => !key.one_of KEYS
    let problems := unknown.map (Problem.unknown_key joint)
    match parse_can_id joint items, parse_direction joint items,
        parse_zero_on_start joint items with
    | .inr can_id, .inr direction, .inr zero_on_start =>
      if problems = [] then ([], some ⟨joint, can_id, direction, zero_on_start⟩)
      else (problems, none)
    | can_id, direction, zero_on_start =>
      (problems ++ can_id.getLeft?.toList ++ direction.getLeft?.toList ++
        zero_on_start.getLeft?.toList, none)
  | _ => ([.no_mapping joint], none)

/-- The loop over the joints. -/
def parse_motors : Items O → List (Problem O) × List Motor
  | [] => ([], [])
  | (.str joint, entry) :: rest =>
    let (problems, motors) := parse_motors rest
    if joint ∈ JOINTS then
      ((parse_motor joint entry).1 ++ problems, (parse_motor joint entry).2.toList ++ motors)
    else (.unknown_joint (.str joint) :: problems, motors)
  | (joint, _) :: rest =>
    let (problems, motors) := parse_motors rest
    (.unknown_joint joint :: problems, motors)

/-- The loop over the CAN IDs; `by_id` names the first motor with an ID. -/
def repeated_ids : List Motor → Dict Nat String → List (Problem O)
  | [], _ => []
  | motor :: rest, by_id =>
    match by_id.get motor.can_id with
    | some first => .same_can_id motor.can_id first motor.joint :: repeated_ids rest by_id
    | none => repeated_ids rest (by_id.set motor.can_id motor.joint)

/-- Every problem of a file with these top-level items and joints, and its motors. -/
def check_items (require_gizmo : Bool) (data entries : Items O) : List (Problem O) × List Motor :=
  let unknown := (data.map Prod.fst).filter fun key => !key.is_str "motors"
  let (problems, motors) := parse_motors entries
  let required := if require_gizmo then JOINTS else WHEEL_JOINTS
  let missing := required.filter fun joint => !(entries.map Prod.fst).any (·.is_str joint)
  (unknown.map .unknown_top_level ++ problems ++ missing.map .no_entry ++
    repeated_ids motors [], motors)

/-- What the validation of a value looks at: its items and those of `motors`. -/
def motor_items : Value O → Option (Items O × Items O)
  | .dict data =>
    match get_item data "motors" with
    | some (.dict entries) => some (data, entries)
    | _ => none
  | _ => none

variable {K : Type} (py : PyYaml O)

/-- The end of `parse`: the motors, or an error that lists every problem. -/
def conclude (path : String) (problems : List (Problem O)) (motors : List Motor) :
    Except (Exception K) MotorConfig :=
  if problems.isEmpty then .ok ⟨path, motors⟩
  else
    match problems.mapM (Problem.text py) with
    | some lines =>
      .error (.motor_config_error (s!"Invalid motor configuration {path}:\n" ++
        "\n".intercalate (lines.map fun line => "  - " ++ line)))
    | none => .error (.value_error "Exceeds the limit for integer string conversion")

/-- The validating part of `parse`. -/
def validate (path : String) (require_gizmo : Bool) (value : Value O) :
    Except (Exception K) MotorConfig :=
  match motor_items value with
  | none =>
    .error (.motor_config_error (s!"{path}: expected a 'motors:' mapping with one entry per " ++
      "joint (" ++ ", ".intercalate JOINTS ++ ")."))
  | some (data, entries) =>
    conclude py path (check_items require_gizmo data entries).1
      (check_items require_gizmo data entries).2

/-- What leaves `parse` when the loader raises. -/
def raised_by_yaml (path : String) : YamlRaise → Exception K
  | .yaml_error text => .motor_config_error s!"{path} is not valid YAML: {text}"
  | .type_error => .type_error
  | .value_error => .value_error "Exceeds the limit for integer string conversion"
  | .other => .other

/-- What `parse` makes of the outcome of the loader. -/
def validate_loaded (path : String) (require_gizmo : Bool) (loaded : Except YamlRaise (Value O)) :
    Except (Exception K) MotorConfig :=
  match loaded with
  | .error e => .error (raised_by_yaml path e)
  | .ok value => validate py path require_gizmo value

/-- Validate the text of a motors.yaml. -/
def parse (text path : String) (require_gizmo : Bool) : Except (Exception K) MotorConfig :=
  validate_loaded py path require_gizmo (load_yaml py text)

end Validation

/-- What `open` and a binary read find under a path. -/
inductive File where
  | unreadable (strerror : String)
  | bytes (b : List UInt8)

/-- What `load` uses outside the repository. -/
structure Machine (O : Type) where
  file : String → File
  /-- The text of these bytes, if they are valid. -/
  decode : List UInt8 → Option String
  py : PyYaml O
  /-- The path in the installed package, or why it cannot be found. -/
  default_path : Except String String

variable {O K : Type}

def read_text (m : Machine O) (path : String) : Except (Exception K) String :=
  match m.file path with
  | .unreadable strerror =>
    .error (.motor_config_error
      (s!"Cannot read the motor configuration {path}: " ++ strerror))
  | .bytes b =>
    match m.decode b with
    | some text => .ok text
    | none => .error .unicode_decode_error

/-- `path or default_path()`. -/
def motors_path (m : Machine O) (path : Option String) : Except String String :=
  if path.getD "" = "" then m.default_path else .ok (path.getD "")

def load_file (m : Machine O) (path : String) (require_gizmo : Bool) :
    Except (Exception K) MotorConfig := do
  let text ← read_text m path
  parse m.py text path require_gizmo

/-- Read and validate motors.yaml; without a path, the one of the package. -/
def load (m : Machine O) (path : Option String) (require_gizmo : Bool) :
    Except (Exception K) MotorConfig :=
  match motors_path m path with
  | .error message => .error (.motor_config_error message)
  | .ok path => load_file m path require_gizmo

/-- `load` returns a configuration or raises `MotorConfigError`. -/
def Settled (r : Except (Exception K) MotorConfig) : Prop :=
  (∃ config, r = .ok config) ∨ ∃ message, r = .error (.motor_config_error message)

def YamlRaise.IsYamlError (e : YamlRaise) : Prop := ∃ text, e = .yaml_error text

/-- No problem of the value shows an integer too long to print. -/
def Printable (py : PyYaml O) (require_gizmo : Bool) (value : Value O) : Prop :=
  ∀ data entries, motor_items value = some (data, entries) →
    ∀ problem ∈ (check_items require_gizmo data entries).1, (problem.text py).isSome = true

/-- The first objection, if there is one, is a `YAMLError`, and else the value is printable. -/
def Contained (py : PyYaml O) (require_gizmo : Bool) (value : Value O) : List YamlRaise → Prop
  | [] => Printable py require_gizmo value
  | e :: _ => e.IsYamlError

/-- PyYAML refuses the text as such, or what it objects to in its document is contained. -/
def TextContained (py : PyYaml O) (require_gizmo : Bool) (text : String) : Prop :=
  match py.compose text with
  | .error e => e.IsYamlError
  | .ok none => True
  | .ok (some root) => Contained py require_gizmo (node_value py root) (document_objections py root)

/-- The file cannot be read, or it is a text whose first objection is contained. -/
def FileContained (m : Machine O) (require_gizmo : Bool) : File → Prop
  | .unreadable _ => True
  | .bytes b => ∃ text, m.decode b = some text ∧ TextContained m.py require_gizmo text

section Settled
variable {py : PyYaml O} {path : String} {require_gizmo : Bool}

theorem settled_error {e : Exception K} :
    Settled (.error e : Except (Exception K) MotorConfig) ↔ ∃ message, e = .motor_config_error message := by
  constructor
  · rintro (⟨config, h⟩ | ⟨message, h⟩)
    · cases h
    · injection h with h
      exact ⟨message, h⟩
  · rintro ⟨message, rfl⟩
    exact .inr ⟨message, rfl⟩

theorem raised_by_yaml_settled {e : YamlRaise} :
    Settled (.error (raised_by_yaml path e) : Except (Exception K) MotorConfig) ↔
      e.IsYamlError := by
  rw [settled_error]
  constructor
  · rintro ⟨message, h⟩
    cases e with
    | yaml_error text => exact ⟨text, rfl⟩
    | type_error => cases h
    | value_error => cases h
    | other => cases h
  · rintro ⟨text, rfl⟩
    exact ⟨_, rfl⟩

/-- All the lines of the error can be written if and only if each of them can. -/
theorem lines_isSome (problems : List (Problem O)) :
    (problems.mapM (Problem.text py)).isSome = true ↔
      ∀ problem ∈ problems, (problem.text py).isSome = true := by
  induction problems with
  | nil => simp
  | cons problem rest ih =>
    rw [List.mapM_cons, List.forall_mem_cons, ← ih]
    cases problem.text py with
    | none => exact iff_of_false (fun h => by cases h) fun h => by cases h.1
    | some line =>
      cases rest.mapM (Problem.text py) with
      | none => exact iff_of_false (fun h => by cases h) fun h => by cases h.2
      | some lines => exact iff_of_true rfl ⟨rfl, rfl⟩

theorem conclude_settled {problems : List (Problem O)} {motors : List Motor} :
    Settled (conclude py path problems motors : Except (Exception K) MotorConfig) ↔
      ∀ problem ∈ problems, (problem.text py).isSome = true := by
  rw [← lines_isSome]
  unfold conclude
  by_cases hnone : problems.isEmpty = true
  · rw [if_pos hnone, List.isEmpty_iff.mp hnone]
    exact iff_of_true (.inl ⟨_, rfl⟩) rfl
  · rw [if_neg hnone]
    cases problems.mapM (Problem.text py) with
    | some lines => exact iff_of_true (.inr ⟨_, rfl⟩) rfl
    | none =>
      refine iff_of_false (fun h => ?_) fun h => by cases h
      obtain ⟨message, h⟩ := settled_error.mp h
      cases h

theorem validate_settled {value : Value O} :
    Settled (validate py path require_gizmo value : Except (Exception K) MotorConfig) ↔
      Printable py require_gizmo value := by
  unfold validate Printable
  cases motor_items value with
  | none => exact iff_of_true (.inr ⟨_, rfl⟩) fun _ _ h => by cases h
  | some items =>
    obtain ⟨data, entries⟩ := items
    refine conclude_settled.trans ⟨fun h data' entries' heq => ?_, fun h => h data entries rfl⟩
    cases heq
    exact h

theorem loaded_settled {value : Value O} {objections : List YamlRaise}
    {loaded : Except YamlRaise (Value O)}
    (h : Heeds (fun data => data = value) objections loaded) :
    Settled (validate_loaded py path require_gizmo loaded : Except (Exception K) MotorConfig) ↔
      Contained py require_gizmo value objections := by
  cases h with
  | first e rest => exact raised_by_yaml_settled
  | none_ data hdata =>
    subst hdata
    exact validate_settled

theorem parse_settled {text : String} :
    Settled (parse py text path require_gizmo : Except (Exception K) MotorConfig) ↔
      TextContained py require_gizmo text := by
  unfold parse load_yaml TextContained
  cases py.compose text with
  | error e => exact raised_by_yaml_settled
  | ok root =>
    cases root with
    | none => exact iff_of_true (.inr ⟨_, rfl⟩) trivial
    | some root => exact loaded_settled (construct_document_heeds root)

theorem load_file_settled {m : Machine O} :
    Settled (load_file m path require_gizmo : Except (Exception K) MotorConfig) ↔
      FileContained m require_gizmo (m.file path) := by
  unfold load_file read_text
  cases m.file path with
  | unreadable strerror => exact iff_of_true (.inr ⟨_, rfl⟩) trivial
  | bytes b =>
    show Settled (_ >>= _) ↔ ∃ text, m.decode b = some text ∧ _
    dsimp only
    cases m.decode b with
    | none =>
      refine iff_of_false (fun h => ?_) fun ⟨text, h, _⟩ => by cases h
      obtain ⟨message, h⟩ := settled_error.mp h
      cases h
    | some text =>
      refine Iff.trans parse_settled ⟨fun h => ⟨text, rfl, h⟩, fun ⟨text', heq, h⟩ => ?_⟩
      cases heq
      exact h

/-- What `load` raises is contained exactly if the file is. -/
theorem load_settled {m : Machine O} {path : Option String} :
    Settled (load m path require_gizmo : Except (Exception K) MotorConfig) ↔
      ∀ file_path, motors_path m path = .ok file_path →
        FileContained m require_gizmo (m.file file_path) := by
  unfold load
  cases motors_path m path with
  | error message => exact iff_of_true (.inr ⟨_, rfl⟩) fun _ h => by cases h
  | ok file_path =>
    refine load_file_settled.trans ⟨fun h p heq => ?_, fun h => h file_path rfl⟩
    cases heq
    exact h

end Settled

end IotRobot.Tool
