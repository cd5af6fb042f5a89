import IotRobot.Bringup.Description

/-!
# The robot starts with the motors of motors.yaml

A motors.yaml that `motor_config` accepts is expanded by xacro without an error, and the hardware
components accept what they are given. Their joints are the motors that the launch file checks before
the start and stops after it.
-/

namespace IotRobot.Bringup

open Lib Tool Safe

set_option autoImplicit false

section Init
variable {K : Type} [Field K] [LinearOrder K] [FloorSemiring K]
variable {stod : String → Option (Dbl K × Nat)} {stol : String → Option Int} {hardware : HardwareInfo K}

/-- What `parse_joint` returns, from what it reads. -/
theorem parse_joint_ok (hardware : HardwareInfo K) (info : ComponentInfo)
    {can_id kt gear_ratio enc_off direction stall_effort stall_time_ms : K} {zero_on_activate : Bool}
    (hid : parse_double stod info.parameters "can_id" 0 info.name = .ok can_id)
    (hkt : parse_double stod info.parameters "kt" 0 info.name = .ok kt)
    (hgear : parse_double stod info.parameters "gear_ratio" 1 info.name = .ok gear_ratio)
    (hoff : parse_double stod info.parameters "enc_off" 0 info.name = .ok enc_off)
    (hdirection : parse_double stod info.parameters "direction" 1 info.name = .ok direction)
    (hzero : parse_bool info.parameters "zero_on_activate" false info.name = .ok zero_on_activate)
    (hstall : parse_double stod info.parameters "stall_effort" 0 info.name = .ok stall_effort)
    (htime : parse_double stod info.parameters "stall_time_ms" 500 info.name = .ok stall_time_ms)
    (hsign : direction = 1 ∨ direction = -1) (hgear_pos : 0 < gear_ratio) (hstall_pos : 0 ≤ stall_effort)
    (htime_pos : 0 < stall_time_ms)
    (hcommands : ∀ i ∈ info.command_interfaces,
      i = HW_IF_POSITION ∨ i = HW_IF_VELOCITY ∨ i = HW_IF_EFFORT)
    (hstates : ∀ i ∈ info.state_interfaces,
      i = HW_IF_POSITION ∨ i = HW_IF_VELOCITY ∨ i = HW_IF_EFFORT ∨ i = "temperature") :
    ∃ p, parse_joint stod hardware info = .ok p ∧ p.1 =
      { name := info.name
        can_id := ⌊can_id⌋₊
        direction := direction
        enc_off := enc_off
        kt := kt
        gear_ratio := gear_ratio
        zero_on_activate := zero_on_activate
        position_commanded := info.command_interfaces.contains HW_IF_POSITION
        has_position_limits := false
        min_position := .ninf
        max_position := .pinf
        max_velocity := 0
        stall_effort := stall_effort
        stall_time := ⌊stall_time_ms⌋₊
        base_state := hardware.base_state info.name
        base_command := hardware.base_command info.name } := by
  have hno_command : info.command_interfaces.find?
      (fun i => i ≠ HW_IF_POSITION ∧ i ≠ HW_IF_VELOCITY ∧ i ≠ HW_IF_EFFORT) = none := by
    simp only [List.find?_eq_none, decide_eq_true_eq]
    intro i hi
    have hknown := hcommands i hi
    tauto
  have hno_state : info.state_interfaces.find? (fun i => i ≠ HW_IF_POSITION ∧ i ≠ HW_IF_VELOCITY ∧
      i ≠ HW_IF_EFFORT ∧ i ≠ "temperature") = none := by
    simp only [List.find?_eq_none, decide_eq_true_eq]
    intro i hi
    have hknown := hstates i hi
    tauto
  have hok : ¬ (stall_effort < 0 ∨ ¬ 0 < stall_time_ms) := by
    simp [hstall_pos, htime_pos]
  unfold parse_joint
  simp only [hid, hkt, hgear, hoff, hdirection, hzero, hstall, htime, bind, Except.bind, hsign,
    hgear_pos, hok, dite_true, dite_false, hno_command, hno_state]
  exact ⟨_, rfl, rfl⟩

theorem parse_joints_ok {infos : List ComponentInfo} {params : List (JointParams K)}
    (h : List.Forall₂ (fun info p => ∃ q, parse_joint stod hardware info = .ok q ∧ q.1 = p) infos params)
    (done : ParsedJoints K)
    (hdistinct : (done.1.map (fun p => p.1.can_id) ++ params.map JointParams.can_id).Nodup) :
    ∃ parsed, parse_joints stod hardware infos done = .ok parsed ∧
      parsed.1.map Subtype.val = done.1.map Subtype.val ++ params := by
  induction h generalizing done with
  | nil => exact ⟨done, rfl, by simp⟩
  | cons hfirst hrest ih =>
    rename_i info p infos params
    obtain ⟨q, hparse, rfl⟩ := hfirst
    have hfresh : ¬ q.1.can_id ∈ done.1.map fun p => p.1.can_id := by
      intro hmem
      rw [List.map_cons, List.nodup_append] at hdistinct
      exact hdistinct.2.2 _ hmem _ List.mem_cons_self rfl
    unfold parse_joints
    rw [hparse]
    change ∃ parsed, dite _ _ _ = _ ∧ _
    rw [dif_neg hfresh]
    obtain ⟨parsed, hparsed, hmap⟩ := ih ⟨done.1 ++ [q], _⟩ (by simpa using hdistinct)
    exact ⟨parsed, hparsed, by simpa using hmap⟩

omit [FloorSemiring K] in
theorem limit_joints_ok {model : Option (String → Option (JointLimits K))}
    {parsed : List { p : JointParams K // p.Parsed }} {params : List (JointParams K)}
    (h : List.Forall₂ (fun p q => ∃ r, limit_joint model hardware p = .ok r ∧ r.1 = q) parsed params) :
    ∃ limited, limit_joints model hardware parsed = .ok limited ∧ limited.1.map Subtype.val = params := by
  induction h with
  | nil => exact ⟨_, rfl, rfl⟩
  | cons hfirst _ ih =>
    obtain ⟨r, hlimit, rfl⟩ := hfirst
    obtain ⟨limited, hlimited, rfl⟩ := ih
    unfold limit_joints
    rw [hlimit, hlimited]
    exact ⟨_, rfl, rfl⟩

/-- The joints of a component. -/
def joints_of (component : (n : Nat) × Component K n) : List (JointParams K) := List.ofFn component.2.joint

theorem on_init_ok {parsed limited : List (JointParams K)} {status_timeout brake_time : Nat}
    (hparse : List.Forall₂ (fun info p => ∃ q, parse_joint stod hardware info = .ok q ∧ q.1 = p)
      hardware.joints parsed)
    (hdistinct : (parsed.map JointParams.can_id).Nodup)
    (hlimited : ∀ ps : List { p : JointParams K // p.Parsed }, ps.map Subtype.val = parsed →
      List.Forall₂ (fun p q => ∃ r, limit_joint hardware.model hardware p = .ok r ∧ r.1 = q) ps limited)
    (hstatus : parse_ms stol hardware.hardware_parameters "status_timeout_ms" 100 hardware.name =
      .ok status_timeout)
    (hbrake : parse_ms stol hardware.hardware_parameters "brake_time_ms" 300 hardware.name =
      .ok brake_time) :
    ∃ component, on_init stod stol hardware = .ok component ∧ joints_of component = limited ∧
      component.2.status_timeout = status_timeout ∧ component.2.brake_time = brake_time := by
  obtain ⟨ps, hps, hvalues⟩ := parse_joints_ok hparse ⟨[], List.nodup_nil⟩ (by simpa using hdistinct)
  obtain ⟨qs, hqs, hlast⟩ := limit_joints_ok (hlimited ps.1 (by simpa using hvalues))
  unfold on_init
  rw [hps]
  change ∃ component, (limit_joints _ _ _ >>= _) = _ ∧ _
  rw [hqs]
  change ∃ component, (parse_ms _ _ _ _ _ >>= _) = _ ∧ _
  rw [hstatus]
  change ∃ component, (parse_ms _ _ _ _ _ >>= _) = _ ∧ _
  rw [hbrake]
  refine ⟨_, rfl, ?_, rfl, rfl⟩
  unfold joints_of
  rw [← hlast]
  simp only [List.get_eq_getElem]
  exact List.ofFn_getElem_eq_map qs.1 Subtype.val

end Init

section Expand
variable {O : Type} {py : PyYaml O} {motors_file : String} {value : Value O} {table : Items O}

/-- What the table says about a motor. -/
structure Described (table : Items O) (motor : Motor) : Prop where
  listed : ∃ items, get_item table motor.joint = some (.dict items) ∧
    get_item items "can_id" = some (.atom (.int motor.can_id)) ∧
    get_item items "direction" = some (.atom (.int motor.direction)) ∧
    zero_on_start items = motor.zero_on_start
  id_range : 1 ≤ motor.can_id ∧ motor.can_id ≤ 254
  sign : motor.direction = 1 ∨ motor.direction = -1
  known : motor.joint ∈ JOINTS
  unzeroed : motor.joint ∉ GIZMO_JOINTS → motor.zero_on_start = false

/-- A valid entry describes the motor that it lists. -/
theorem described_of_entry {item : Atom O × Value O} {motor : Motor} (hkeys : (table.map Prod.fst).Nodup)
    (hentries : UniqueEntries table) (hitem : item ∈ table) (hvalid : ValidEntry item)
    (hlists : Lists item motor) : Described table motor := by
  obtain ⟨items, rfl, hid, hdirection, hzero⟩ := hlists
  obtain ⟨joint, hjoint, items', heq, hvalid⟩ := hvalid
  obtain ⟨⟨⟩, ⟨⟩⟩ := Prod.mk.inj heq
  have hunique : (items.map Prod.fst).Nodup := hentries _ hitem items rfl
  have hget {key : String} {found : Value O} :
      get_item items key = some found ↔ (.str key, found) ∈ items :=
    get_item_iff hunique
  obtain ⟨i, hi, hlow, hhigh⟩ := hvalid.can_id
  obtain ⟨d, hd, hsign⟩ := hvalid.direction
  have hid' : i = motor.can_id := by
    have hsame := (hget.mpr hi).symm.trans (hget.mpr hid)
    simpa using hsame
  have hdirection' : d = motor.direction := by
    have hsame := (hget.mpr hd).symm.trans (hget.mpr hdirection)
    simpa using hsame
  subst hid' hdirection'
  -- the third key may be missing
  have hstart : zero_on_start items = motor.zero_on_start := by
    unfold zero_on_start
    cases hsome : get_item items "zero_on_start" with
    | none =>
      cases hmotor : motor.zero_on_start with
      | false => rfl
      | true =>
        rw [hget.mpr (hzero.mp hmotor)] at hsome
        cases hsome
    | some flag =>
      obtain ⟨b, rfl, -⟩ := hvalid.zero_on_start flag (hget.mp hsome)
      rw [Bool.eq_iff_iff, hzero, ← hget, hsome]
      simp
  refine ⟨⟨items, (get_item_iff hkeys).mpr hitem, hget.mpr hid, hget.mpr hdirection, hstart⟩, by omega,
    hsign, hjoint, fun hwheel => ?_⟩
  rw [Bool.eq_false_iff]
  intro htrue
  obtain ⟨b, ⟨⟩, hgizmo⟩ := hvalid.zero_on_start _ (hzero.mp htrue)
  exact hwheel (hgizmo rfl)

omit O in
theorem exists_of_mem_right {α β : Type*} {R : α → β → Prop} {xs : List α} {ys : List β} {y : β}
    (h : List.Forall₂ R xs ys) (hy : y ∈ ys) : ∃ x ∈ xs, R x y := by
  induction h with
  | nil => cases hy
  | cons hfirst _ ih =>
    rcases List.mem_cons.mp hy with rfl | hrest
    · exact ⟨_, List.mem_cons_self, hfirst⟩
    · obtain ⟨x, hx, hR⟩ := ih hrest
      exact ⟨x, List.mem_cons_of_mem _ hx, hR⟩

/-- The table of an accepted file describes every motor of the configuration. -/
theorem table_described (motors_file : String) {path : String} {require_gizmo : Bool} {K : Type}
    {config : MotorConfig} (hunique : UniqueKeys value)
    (hconfig : (validate py path require_gizmo value : Except (Can.Exception K) MotorConfig) = .ok config) :
    ∃ table, motors_table motors_file value = .ok table ∧
      (∀ motor ∈ config.motors, Described table motor) ∧ Consistent config ∧
        ∀ joint ∈ required require_gizmo, joint ∈ config.motors.map Motor.joint := by
  obtain ⟨entries, rfl, hvalid, -, hlists⟩ := (validate_ok_iff_valid py hunique config).mp hconfig
  obtain ⟨hdata, hkeys, hentries⟩ := hunique.entries List.mem_cons_self
  have hmotors := (get_item_iff hdata).mpr List.mem_cons_self
  refine ⟨entries, ?_, fun motor hmotor => ?_, hvalid.consistent hlists hkeys hentries⟩
  · unfold motors_table
    dsimp only
    rw [hmotors]
  · obtain ⟨item, hitem, hmotor⟩ := exists_of_mem_right hlists hmotor
    exact described_of_entry hkeys hentries hitem (hvalid.entry item hitem) hmotor

/-- The parameters that the description gives a motor. -/
def motor_parameters (motor : Motor) : List (String × String) :=
  [("can_id", toString (motor.can_id : Int)), ("direction", toString motor.direction),
    ("pole_pairs", "14"), ("gear_ratio", "10"), ("kt", "0.127")]

def wheel_info (motor : Motor) : ComponentInfo :=
  ⟨motor.joint, motor_parameters motor, ["velocity"], ["position", "velocity", "effort"]⟩

def gizmo_info (motor : Motor) : ComponentInfo :=
  ⟨motor.joint, motor_parameters motor ++
    [("zero_on_activate", if motor.zero_on_start then "true" else "false"), ("stall_effort", "1.0"),
      ("stall_time_ms", "500")], ["position"], ["position", "velocity", "effort"]⟩

variable {motor : Motor}

theorem Described.parameters (py : PyYaml O) (h : Described table motor)
    (htable : motors_table motors_file value = .ok table) :
    ∃ items,
      ak45_10_params py motors_file (.ok value) motor.joint = .ok (motor_parameters motor, items) ∧
      zero_on_start items = motor.zero_on_start := by
  obtain ⟨items, hentry, hid, hdirection, hzero⟩ := h.listed
  have hrange : (1 : Int) ≤ motor.can_id ∧ (motor.can_id : Int) ≤ 254 := by
    have hid := h.id_range
    omega
  refine ⟨items, ?_, hzero⟩
  unfold ak45_10_params
  change (motors_table motors_file value >>= _) = _
  rw [htable]
  change (entry motors_file table motor.joint >>= _) = _
  unfold entry
  rw [hentry]
  change (can_id motors_file items motor.joint >>= _) = _
  unfold can_id
  rw [hid]
  dsimp only
  rw [if_pos hrange]
  change (direction py motors_file items motor.joint >>= _) = _
  unfold direction
  rw [hdirection]
  dsimp only
  rw [if_pos h.sign]
  rfl

theorem Described.wheel_ok (h : Described table motor)
    (htable : motors_table motors_file value = .ok table) :
    wheel py motors_file false (.ok value) motor.joint = .ok (wheel_info motor) := by
  obtain ⟨items, hparameters, -⟩ := h.parameters py htable
  unfold wheel
  rw [if_neg (by simp), hparameters]
  rfl

theorem Described.gizmo_ok (h : Described table motor)
    (htable : motors_table motors_file value = .ok table) :
    gizmo_joint py motors_file false (.ok value) motor.joint = .ok (gizmo_info motor) := by
  obtain ⟨items, hparameters, hzero⟩ := h.parameters py htable
  unfold gizmo_joint
  rw [if_neg (by simp), hparameters]
  unfold gizmo_info
  rw [← hzero]
  rfl

theorem mapM_joints (f : String → Except String ComponentInfo) (info : Motor → ComponentInfo)
    (motors : List Motor) (h : ∀ motor ∈ motors, f motor.joint = .ok (info motor)) :
    (motors.map Motor.joint).mapM f = .ok (motors.map info) := by
  induction motors with
  | nil => rfl
  | cons motor motors ih =>
    rw [List.map_cons, List.mapM_cons, h motor List.mem_cons_self,
      ih fun motor hm => h motor (List.mem_cons_of_mem _ hm)]
    rfl

end Expand

section Joints
variable {K : Type} [Field K] [LinearOrder K]
variable {stod : String → Option (Dbl K × Nat)} {stol : String → Option Int}

/-- The joint that drives a motor. -/
def joint_params (exports : String → Safe.Interface → Bool × Bool) (motor : Motor) : JointParams K :=
  let gizmo := decide (motor.joint ∈ GIZMO_JOINTS)
  { name := motor.joint
    can_id := motor.can_id
    direction := motor.direction
    enc_off := 0
    kt := 0.127
    gear_ratio := 10.0
    zero_on_activate := motor.zero_on_start
    position_commanded := gizmo
    has_position_limits := gizmo
    min_position := if gizmo then .fin (-0.785398) else .ninf
    max_position :=
      if gizmo then .fin (if motor.joint = "gizmo_yaw_joint" then 0.785398 else 0) else .pinf
    max_velocity := if gizmo then 1 else 0
    stall_effort := if gizmo then 1 else 0
    stall_time := 500
    base_state := fun interface => (exports motor.joint interface).1
    base_command := fun interface => (exports motor.joint interface).2 }

/-- And before its limits are known. -/
def parsed_params (exports : String → Safe.Interface → Bool × Bool) (motor : Motor) : JointParams K :=
  { joint_params exports motor with
    has_position_limits := false
    min_position := .ninf
    max_position := .pinf
    max_velocity := 0 }

omit [Field K] [LinearOrder K] in
theorem parse_double_given {parameters : List (String × String)} {name text owner : String} {value x : K}
    (hlookup : parameters.lookup name = some text) (hread : stod text = some (.fin x, text.utf8ByteSize)) :
    parse_double stod parameters name value owner = .ok x := by
  unfold parse_double
  rw [hlookup]
  dsimp only
  rw [hread]
  exact if_pos rfl

omit [Field K] [LinearOrder K] in
theorem parse_double_absent {parameters : List (String × String)} {name owner : String} {value : K}
    (hlookup : parameters.lookup name = none) :
    parse_double stod parameters name value owner = .ok value := by
  unfold parse_double
  rw [hlookup]

theorem parse_ms_given {parameters : List (String × String)} {name text owner : String} {value : Nat}
    {i : Int} (hlookup : parameters.lookup name = some text) (hread : stol text = some i) (hpos : 0 < i) :
    parse_ms stol parameters name value owner = .ok i.toNat := by
  unfold parse_ms
  rw [hlookup]
  dsimp only
  rw [hread]
  exact if_neg (not_le.mpr hpos)

variable [FloorSemiring K] [IsStrictOrderedRing K]
variable {limits : String → Option (JointLimits K)} {exports : String → Safe.Interface → Bool × Bool}
variable {system : Ros2Control} {O : Type} {table : Items O} {motor : Motor}

omit [IsStrictOrderedRing K] in
/-- What the plugin reads of the parameters that every motor has. -/
theorem motor_parameters_read (hreads : Reads stod stol) (h : Described table motor) (owner : String)
    (rest : List (String × String)) :
    parse_double stod (motor_parameters motor ++ rest) "can_id" 0 owner = .ok (motor.can_id : K) ∧
    parse_double stod (motor_parameters motor ++ rest) "direction" 1 owner = .ok (motor.direction : K) ∧
    parse_double stod (motor_parameters motor ++ rest) "gear_ratio" 1 owner = .ok (10.0 : K) ∧
    parse_double stod (motor_parameters motor ++ rest) "kt" 0 owner = .ok (0.127 : K) := by
  have hid := h.id_range
  have hsign : (-1 : Int) ≤ motor.direction ∧ motor.direction ≤ 500 := by
    have hsign := h.sign
    omega
  have hread_id := hreads.int motor.can_id (by omega) (by omega)
  have hread_gear := hreads.int 10 (by omega) (by omega)
  have hten : (10.0 : K) = ((10 : Int) : K) := by norm_num
  refine ⟨parse_double_given rfl (by simpa using hread_id),
    parse_double_given rfl (hreads.int _ hsign.1 hsign.2), ?_, parse_double_given rfl hreads.kt⟩
  rw [hten]
  exact parse_double_given rfl hread_gear

omit [LinearOrder K] [FloorSemiring K] [IsStrictOrderedRing K] in
theorem direction_cases (h : Described table motor) :
    (motor.direction : K) = 1 ∨ (motor.direction : K) = -1 := by
  rcases h.sign with h | h
  · simp [h]
  · simp [h]

/-- `parse_joint` of a wheel. -/
theorem parse_wheel (hreads : Reads stod stol) (h : Described table motor)
    (hwheel : motor.joint ∉ GIZMO_JOINTS) :
    ∃ p, parse_joint stod (hardware_info limits exports system) (wheel_info motor) = .ok p ∧
      p.1 = parsed_params exports motor := by
  obtain ⟨hid, hdirection, hgear, hkt⟩ := motor_parameters_read hreads h motor.joint []
  rw [List.append_nil] at hid hdirection hgear hkt
  obtain ⟨p, hp, hvalue⟩ := parse_joint_ok (hardware_info limits exports system)
    (wheel_info motor) hid hkt hgear (parse_double_absent rfl) hdirection rfl (parse_double_absent rfl)
    (parse_double_absent rfl) (direction_cases h) (by norm_num) (le_refl _) (by norm_num)
    (by simp [wheel_info, HW_IF_VELOCITY])
    (by simp [wheel_info, HW_IF_POSITION, HW_IF_VELOCITY, HW_IF_EFFORT])
  refine ⟨p, hp, hvalue.trans ?_⟩
  unfold parsed_params joint_params
  simp [wheel_info, hwheel, h.unzeroed hwheel, HW_IF_POSITION, hardware_info]

/-- `parse_joint` of a joint of the gizmo. -/
theorem parse_gizmo (hreads : Reads stod stol) (h : Described table motor)
    (hgizmo : motor.joint ∈ GIZMO_JOINTS) :
    ∃ p, parse_joint stod (hardware_info limits exports system) (gizmo_info motor) = .ok p ∧
      p.1 = parsed_params exports motor := by
  obtain ⟨hid, hdirection, hgear, hkt⟩ := motor_parameters_read hreads h motor.joint
    [("zero_on_activate", if motor.zero_on_start then "true" else "false"), ("stall_effort", "1.0"),
      ("stall_time_ms", "500")]
  have hzero : parse_bool (gizmo_info motor).parameters "zero_on_activate" false (gizmo_info motor).name =
      .ok motor.zero_on_start := by
    have hlookup : (gizmo_info motor).parameters.lookup "zero_on_activate" =
        some (if motor.zero_on_start then "true" else "false") := rfl
    have htrue : "true".toLower = "true" := by decide +kernel
    have hfalse : "false".toLower = "false" := by decide +kernel
    unfold parse_bool
    rw [hlookup]
    cases motor.zero_on_start with
    | true => simp [htrue]
    | false => simp [hfalse]
  have hfive := hreads.int 500 (by omega) (by omega)
  obtain ⟨p, hp, hvalue⟩ := parse_joint_ok (hardware_info limits exports system)
    (gizmo_info motor) hid hkt hgear (parse_double_absent rfl) hdirection hzero
    (parse_double_given rfl hreads.stall_effort) (parse_double_given rfl hfive)
    (direction_cases h) (by norm_num) zero_le_one (by norm_num)
    (by simp [gizmo_info, HW_IF_POSITION])
    (by simp [gizmo_info, HW_IF_POSITION, HW_IF_VELOCITY, HW_IF_EFFORT])
  refine ⟨p, hp, hvalue.trans ?_⟩
  unfold parsed_params joint_params
  simp [gizmo_info, hgizmo, HW_IF_POSITION, hardware_info]

omit [FloorSemiring K] [IsStrictOrderedRing K] in
/-- The limits of the URDF are taken over where the tag has none. -/
theorem position_command_limits_ok {model : String → Option (JointLimits K)} (hardware : HardwareInfo K)
    {joint : String} {low high v : K} (hmodel : model joint = some ⟨true, low, high, true, .fin v⟩)
    (hcleared : ∀ l, hardware.limits joint = some l →
      l.has_position_limits = false ∧ l.has_velocity_limits = false)
    (hv : 0 < v) (hordered : low ≤ high) :
    ∃ r, position_command_limits model hardware joint = .ok r ∧
      r.limits = ⟨true, low, high, true, .fin v⟩ ∧ r.max_velocity = v := by
  rcases Option.eq_none_or_eq_some (hardware.limits joint) with hlimits | ⟨l, hlimits⟩
  · simp [position_command_limits, hmodel, hlimits, hv, not_lt.mpr hordered]
  · obtain ⟨hposition, hvelocity⟩ := hcleared l hlimits
    simp [position_command_limits, hmodel, hlimits, narrowed, hposition, hvelocity, hv, not_lt.mpr hordered]

omit [FloorSemiring K] in
/-- The limits turn what `parse_joint` returns into the joint of the motor. -/
theorem limit_motor {p : { p : JointParams K // p.Parsed }} (hp : p.1 = parsed_params exports motor)
    (hcleared : motor.joint ∈ GIZMO_JOINTS → ∀ l, limits motor.joint = some l →
      l.has_position_limits = false ∧ l.has_velocity_limits = false) :
    ∃ r, limit_joint (some (urdf_limits K)) (hardware_info limits exports system) p = .ok r ∧
      r.1 = joint_params exports motor := by
  obtain ⟨p, hparsed⟩ := p
  dsimp only at hp
  subst hp
  unfold limit_joint
  by_cases hgizmo : motor.joint ∈ GIZMO_JOINTS
  · have hurdf : urdf_limits K motor.joint =
        some ⟨true, -0.785398, if motor.joint = "gizmo_yaw_joint" then 0.785398 else 0, true, .fin 1⟩ := by
      rcases List.mem_pair.mp hgizmo with h | h
      · simp [urdf_limits, h]
      · simp [urdf_limits, h]
    have hordered : (-0.785398 : K) ≤ if motor.joint = "gizmo_yaw_joint" then 0.785398 else 0 := by
      split_ifs
      · norm_num
      · norm_num
    obtain ⟨l, hl, hlimits, hvelocity⟩ := position_command_limits_ok
      (hardware_info limits exports system) hurdf (hcleared hgizmo) zero_lt_one hordered
    rw [dif_pos (by simp [parsed_params, joint_params, hgizmo])]
    change ∃ r, (position_command_limits (urdf_limits K) _ motor.joint >>= _) = _ ∧ _
    rw [hl]
    refine ⟨_, rfl, ?_⟩
    simp [hlimits, hvelocity, parsed_params, joint_params, hgizmo]
  · rw [dif_neg (by simp [parsed_params, joint_params, hgizmo])]
    refine ⟨_, rfl, ?_⟩
    simp [parsed_params, joint_params, hgizmo]

/-- What the description says about the joint of a motor. -/
def motor_info (motor : Motor) : ComponentInfo :=
  if motor.joint ∈ GIZMO_JOINTS then gizmo_info motor else wheel_info motor

/-- The component of a tag with these motors drives them. -/
theorem component_starts (limits : String → Option (JointLimits K))
    (exports : String → Safe.Interface → Bool × Bool) (system : Ros2Control)
    (hreads : Reads stod stol) {can_interface : String} {motors : List Motor}
    (hmotors : ∀ motor ∈ motors, Described table motor) (hjoints : system.joints = motors.map motor_info)
    (hhardware : system.hardware_parameters = (cubemars_hardware can_interface).2)
    (hdistinct : (motors.map Motor.can_id).Nodup)
    (hcleared : ∀ motor ∈ motors, motor.joint ∈ GIZMO_JOINTS → ∀ l, limits motor.joint = some l →
      l.has_position_limits = false ∧ l.has_velocity_limits = false) :
    ∃ component, on_init stod stol (hardware_info limits exports system) = .ok component ∧
      joints_of component = motors.map (joint_params exports) ∧
      component.2.status_timeout = 100 ∧ component.2.brake_time = 300 := by
  have hparse : List.Forall₂ (fun info p =>
      ∃ q, parse_joint stod (hardware_info limits exports system) info = .ok q ∧ q.1 = p)
      (hardware_info limits exports system).joints (motors.map (parsed_params exports)) := by
    change List.Forall₂ _ system.joints _
    rw [hjoints, List.forall₂_map_left_iff, List.forall₂_map_right_iff, List.forall₂_same]
    intro motor hmotor
    unfold motor_info
    split_ifs with hgizmo
    · exact parse_gizmo hreads (hmotors motor hmotor) hgizmo
    · exact parse_wheel hreads (hmotors motor hmotor) hgizmo
  refine on_init_ok hparse ?_ (fun ps hps => ?_) ?_ ?_
  · rw [List.map_map]
    exact hdistinct
  · clear hparse hjoints hdistinct
    induction motors generalizing ps with
    | nil =>
      rw [List.map_eq_nil_iff.mp hps]
      exact .nil
    | cons motor motors ih =>
      obtain ⟨p, ps, rfl, hp, hrest⟩ := List.map_eq_cons_iff.mp hps
      refine .cons (limit_motor hp (hcleared motor List.mem_cons_self)) ?_
      exact ih (fun m hm => hmotors m (List.mem_cons_of_mem _ hm))
        (fun m hm => hcleared m (List.mem_cons_of_mem _ hm)) ps hrest
  · exact parse_ms_given (by change system.hardware_parameters.lookup _ = _; rw [hhardware]; rfl)
      (hreads.long 100 (by omega) (by omega)) (by omega)
  · exact parse_ms_given (by change system.hardware_parameters.lookup _ = _; rw [hhardware]; rfl)
      (hreads.long 300 (by omega) (by omega)) (by omega)

end Joints

section Robot
variable {K : Type} [Field K] [LinearOrder K] [FloorSemiring K] [IsStrictOrderedRing K]
variable {stod : String → Option (Dbl K × Nat)} {stol : String → Option Int}
variable {O : Type} {py : PyYaml O} {value : Value O} {table : Items O} {motors_file can_interface : String}

def wheel_control (can_interface : String) (motors : List Motor) : Ros2Control :=
  ⟨"WheelSystem", (cubemars_hardware can_interface).1, (cubemars_hardware can_interface).2,
    motors.map motor_info, []⟩

def gizmo_control (can_interface : String) (motors : List Motor) : Ros2Control :=
  ⟨"GizmoSystem", (cubemars_hardware can_interface).1, (cubemars_hardware can_interface).2,
    motors.map motor_info, GIZMO_JOINTS⟩

omit [Field K] [LinearOrder K] [FloorSemiring K] [IsStrictOrderedRing K] in
theorem wheel_no_gizmo {motors : List Motor} (hjoints : motors.map Motor.joint = WHEEL_JOINTS) {motor : Motor}
    (hmotor : motor ∈ motors) : motor.joint ∉ GIZMO_JOINTS := by
  have hmem := List.mem_map_of_mem (f := Motor.joint) hmotor
  rw [hjoints] at hmem
  have hwheels : ∀ joint ∈ WHEEL_JOINTS, joint ∉ GIZMO_JOINTS := by decide
  exact hwheels _ hmem

theorem wheel_system_ok (py : PyYaml O) (can_interface gizmo_mode : String) {motors : List Motor}
    (hjoints : motors.map Motor.joint = WHEEL_JOINTS)
    (hmotors : ∀ motor ∈ motors, Described table motor)
    (htable : motors_table motors_file value = .ok table) :
    wheel_system py ⟨false, can_interface, motors_file, gizmo_mode⟩ (.ok value) =
      .ok (wheel_control can_interface motors) := by
  have hmap := mapM_joints (wheel py motors_file false (.ok value)) motor_info motors
    fun motor hmotor => by
      rw [(hmotors motor hmotor).wheel_ok htable, motor_info, if_neg (wheel_no_gizmo hjoints hmotor)]
  unfold wheel_system
  rw [← hjoints]
  change (_ >>= _) = _
  rw [hmap]
  rfl

theorem gizmo_system_ok (py : PyYaml O) (can_interface gizmo_mode : String) {motors : List Motor}
    (hjoints : motors.map Motor.joint = GIZMO_JOINTS)
    (hmotors : ∀ motor ∈ motors, Described table motor)
    (htable : motors_table motors_file value = .ok table) :
    gizmo_system py ⟨false, can_interface, motors_file, gizmo_mode⟩ (.ok value) =
      .ok (gizmo_control can_interface motors) := by
  have hmap := mapM_joints (gizmo_joint py motors_file false (.ok value)) motor_info motors
    fun motor hmotor => by
      have hgizmo : motor.joint ∈ GIZMO_JOINTS := hjoints ▸ List.mem_map_of_mem hmotor
      rw [(hmotors motor hmotor).gizmo_ok htable, motor_info, if_pos hgizmo]
  unfold gizmo_system
  rw [← hjoints]
  change (_ >>= _) = _
  rw [hmap, hjoints]
  rfl

/-- A motors.yaml that is accepted for a mode starts the robot in this mode: xacro expands the
description, the components accept it, and their joints are, in order, the motors in use, each with
its CAN ID, its direction and its zeroing, and no ID twice. -/
theorem robot_starts_its_motors (hreads : Reads stod stol) (hunique : UniqueKeys value) {path mode : String}
    {config : MotorConfig} (hmode : mode = "can" ∨ mode = "fixed")
    (hconfig : (validate py path (mode = "can") value : Except (Can.Exception K) MotorConfig) = .ok config)
    {limits : Ros2Control → String → Option (JointLimits K)} (hclears : Clears limits)
    (exports : String → Safe.Interface → Bool × Bool) (can_interface : String) :
    ∃ motors systems components, (config.in_use mode : Except (Can.Exception K) _) = .ok (motors.map some) ∧
      motors ⊆ config.motors ∧ motors.map Motor.joint = driven mode ∧ (motors.map Motor.can_id).Nodup ∧
      iot_robot py ⟨false, can_interface, path, mode⟩ (.ok value) = .ok systems ∧
      List.Forall₂ (fun system component =>
        on_init stod stol (hardware_info (limits system) exports system) = .ok component ∧
        component.2.status_timeout = 100 ∧ component.2.brake_time = 300) systems components ∧
      components.flatMap joints_of = motors.map (joint_params exports) := by
  obtain ⟨table, htable, hdescribed, hconsistent, hlisted⟩ := table_described path hunique hconfig
  obtain ⟨motors, hin_use, hsubset, hjoints, hids⟩ := hconsistent.in_use (K := K)
    fun joint (hjoint : joint ∈ driven mode) => hlisted joint (by
      unfold driven at hjoint
      unfold required
      simpa using hjoint)
  have hmotors : ∀ motor ∈ motors, Described table motor := fun motor hm => hdescribed motor (hsubset hm)
  -- the wheels come first in both lists
  obtain ⟨wheels, gizmo, rfl, hwheels, hgizmo⟩ : ∃ wheels gizmo, motors = wheels ++ gizmo ∧
      wheels.map Motor.joint = WHEEL_JOINTS ∧
      gizmo.map Motor.joint = if mode = "can" then GIZMO_JOINTS else [] := by
    apply List.map_eq_append_iff.mp
    rw [hjoints]
    unfold driven JOINTS
    split_ifs
    · rfl
    · rw [List.append_nil]
  have hdistinct := hids
  rw [List.map_append, List.nodup_append] at hdistinct
  obtain ⟨left, hleft, hleft_joints, hleft_times⟩ := component_starts
    (limits (wheel_control can_interface wheels)) exports (wheel_control can_interface wheels)
    hreads (fun motor hm => hmotors motor (List.mem_append_left _ hm)) rfl rfl hdistinct.1
    (fun motor hm hmem => absurd hmem (wheel_no_gizmo hwheels hm))
  have hwheel_control := wheel_system_ok py can_interface mode hwheels
    (fun motor hm => hmotors motor (List.mem_append_left _ hm)) htable
  rcases hmode with rfl | rfl
  · obtain ⟨right, hright, hright_joints, hright_times⟩ := component_starts
      (limits (gizmo_control can_interface gizmo)) exports (gizmo_control can_interface gizmo)
      hreads (fun motor hm => hmotors motor (List.mem_append_right _ hm)) rfl rfl hdistinct.2.1
      (fun motor _ hmem => hclears _ motor.joint hmem)
    have hgizmo_control := gizmo_system_ok py can_interface "can" hgizmo
      (fun motor hm => hmotors motor (List.mem_append_right _ hm)) htable
    refine ⟨wheels ++ gizmo, [wheel_control can_interface wheels, gizmo_control can_interface gizmo],
      [left, right], hin_use, hsubset, hjoints, hids, ?_, ?_, ?_⟩
    · unfold iot_robot
      rw [if_pos rfl, hwheel_control, hgizmo_control]
      rfl
    · exact .cons ⟨hleft, hleft_times⟩ (.cons ⟨hright, hright_times⟩ .nil)
    · simp [hleft_joints, hright_joints]
  · obtain rfl : gizmo = [] := List.map_eq_nil_iff.mp hgizmo
    refine ⟨wheels ++ [], [wheel_control can_interface wheels], [left], hin_use, hsubset, hjoints, hids,
      ?_, ?_, ?_⟩
    · unfold iot_robot
      rw [if_neg (show ¬ "fixed" = "can" by decide), if_pos rfl, hwheel_control]
      rfl
    · exact .cons ⟨hleft, hleft_times⟩ .nil
    · simp [hleft_joints]

end Robot

section Example

/-- An integer without leading blanks. -/
def read_int (text : String) : Option Int :=
  match text.toList with
  | '-' :: digits => some (Int.negOfNat (Nat.ofDigitChars 10 digits 0))
  | digits => some (Int.ofNat (Nat.ofDigitChars 10 digits 0))

/-- An integer, or one of the decimals that the description writes. -/
def read_double (text : String) : Option (Dbl ℚ × Nat) :=
  if '.' ∈ text.toList then some (.fin (if text = "0.127" then 0.127 else 1), text.utf8ByteSize)
  else (read_int text).map fun i => (.fin i, text.utf8ByteSize)

theorem read_int_toString (n : Nat) : read_int (toString (n : Int)) = some n ∧
    '.' ∉ (toString (n : Int)).toList := by
  have htext : (toString (n : Int)).toList = Nat.toDigits 10 n := Nat.toList_repr
  have hdigit : ∀ ch ∈ Nat.toDigits 10 n, ch.isDigit = true := fun ch hch =>
    Nat.isDigit_of_mem_toDigits (by omega) (by omega) hch
  unfold read_int
  rw [htext]
  refine ⟨?_, fun hpoint => by simpa using hdigit _ hpoint⟩
  split
  · next digits hminus =>
    have hsign := hdigit '-' (by rw [hminus]; exact List.mem_cons_self)
    cases hsign
  · rw [Nat.ofDigitChars_ten_toDigits]
    rfl

theorem numbers_read : Reads read_double read_int := by
  constructor
  · intro i hlow hhigh
    rcases hlow.eq_or_lt with rfl | hlow
    · decide +kernel
    · obtain ⟨n, rfl⟩ := Int.eq_ofNat_of_zero_le (by omega : 0 ≤ i)
      obtain ⟨hread, hpoint⟩ := read_int_toString n
      unfold read_double
      rw [if_neg hpoint, hread]
      rfl
  · decide +kernel
  · decide +kernel
  · intro i hpos _
    obtain ⟨n, rfl⟩ := Int.eq_ofNat_of_zero_le (by omega : 0 ≤ i)
    exact (read_int_toString n).1

def wheel_entry (can_id direction : Int) : Value Unit :=
  .dict [(.str "can_id", .atom (.int can_id)), (.str "direction", .atom (.int direction))]

def gizmo_entry (can_id direction : Int) : Value Unit :=
  .dict [(.str "can_id", .atom (.int can_id)), (.str "direction", .atom (.int direction)),
    (.str "zero_on_start", .atom (.bool true))]

def motors_value : Value Unit :=
  .dict [(.str "motors", .dict [(.str "wheel_joint_left", wheel_entry 12 1),
    (.str "wheel_joint_right", wheel_entry 13 (-1)), (.str "gizmo_yaw_joint", gizmo_entry 10 1),
    (.str "gizmo_pitch_joint", gizmo_entry 11 1)])]

theorem motors_unique : UniqueKeys motors_value := by
  have hwheel (can_id direction : Int) : UniqueKeys (wheel_entry can_id direction) := by
    apply uniqueKeys_dict
    · simp
    · simp [uniqueKeys_atom]
  have hgizmo (can_id direction : Int) : UniqueKeys (gizmo_entry can_id direction) := by
    apply uniqueKeys_dict
    · simp
    · simp [uniqueKeys_atom]
  apply uniqueKeys_dict
  · simp
  · simp only [List.mem_singleton, forall_eq]
    apply uniqueKeys_dict
    · simp
    · simp [hwheel, hgizmo]

/-- The yaw motor of the robot turns with CAN ID 10, and no two of its joints have the same one. -/
theorem robot_starts_its_motors_yaml :
    ∃ systems components, iot_robot wheels_yaml ⟨false, "can0", "motors.yaml", "can"⟩ (.ok motors_value) = .ok systems ∧
      List.Forall₂ (fun system component => on_init read_double read_int
        (hardware_info (K := ℚ) (fun _ => none) (fun _ _ => (true, true)) system) = .ok component)
        systems components ∧
      (components.flatMap joints_of).map JointParams.can_id = [12, 13, 10, 11] := by
  have hconfig : (validate wheels_yaml "motors.yaml" ("can" = "can") motors_value :
      Except (Can.Exception ℚ) MotorConfig) = .ok ⟨"motors.yaml", [⟨"wheel_joint_left", 12, 1, false⟩,
        ⟨"wheel_joint_right", 13, -1, false⟩, ⟨"gizmo_yaw_joint", 10, 1, true⟩,
        ⟨"gizmo_pitch_joint", 11, 1, true⟩]⟩ := by
    decide +kernel
  obtain ⟨motors, systems, components, hin_use, -, -, -, hsystems, hcomponents, hall⟩ :=
    robot_starts_its_motors numbers_read motors_unique (.inl rfl) hconfig
      (show Clears (fun _ _ => none) from fun _ _ _ _ h => by cases h) (fun _ _ => (true, true)) "can0"
  refine ⟨systems, components, hsystems, hcomponents.imp fun _ _ h => h.1, ?_⟩
  have hmotors : motors.map some = [some ⟨"wheel_joint_left", 12, 1, false⟩,
      some ⟨"wheel_joint_right", 13, -1, false⟩, some ⟨"gizmo_yaw_joint", 10, 1, true⟩,
      some ⟨"gizmo_pitch_joint", 11, 1, true⟩] := by
    refine Except.ok.inj (hin_use.symm.trans ?_)
    decide +kernel
  have hids := congrArg (List.map (Option.map Motor.can_id)) hmotors
  rw [hall, List.map_map]
  change motors.map Motor.can_id = _
  apply List.map_injective_iff.mpr (Option.some_injective Nat)
  simpa using hids

end Example

end IotRobot.Bringup
