import IotRobot.Tool.Renumbered
import IotRobot.Tool.Runaway

/-!
# identify

`cubemars_tool identify` moves one motor after the other and asks which joint it was. The answers
become an assignment of joints to CAN IDs; with `--write` it goes to motors.yaml.
-/

namespace IotRobot.Tool

open Lib Prog Can
open Stm32 (Text stripped)

set_option autoImplicit false

/-- What Unicode says of a character. -/
inductive CharKind where
  | decimal (value : Nat)
  | digit
  | other

/-- What `ask` does. -/
inductive Reply (K : Type) where
  | line (text : Text)
  | eof
  | raised (e : Exception K)

inductive Choice where
  | joint (name : String)
  | skip
  | quit
  deriving DecidableEq

inductive Answer where
  | repeat_
  | choice (choice : Choice)
  deriving DecidableEq

section Ask
variable {K : Type} (unicode : Char → CharKind)

/-- `reply.isdigit()`. -/
def isdigit (reply : Text) : Bool :=
  reply != [] && reply.all fun ch =>
    match unicode ch with
    | .other => false
    | _ => true

/-- `int(reply)` of digits; some digits are no decimals. -/
def int_of_digits (reply : Text) : Except (Exception K) Nat :=
  if MAX_STR_DIGITS < reply.length then
    .error (.value_error "Exceeds the limit for integer string conversion")
  else
    reply.foldlM (fun number ch =>
      match unicode ch with
      | .decimal value => .ok (10 * number + value)
      | _ => .error (.value_error "invalid literal for int() with base 10")) 0

def reply_number (reply : Text) : Except (Exception K) (Option Nat) :=
  if isdigit unicode reply then some <$> int_of_digits unicode reply else .ok none

/-- The joint that a reply names by its number or its name. -/
def named_joint (joints : List String) (reply : Text) : Except (Exception K) (Option String) := do
  let number ← reply_number unicode reply
  let listed := if String.ofList reply ∈ joints then some (String.ofList reply) else none
  match number with
  | some number =>
    if 1 ≤ number ∧ number ≤ joints.length then pure joints[number - 1]? else pure listed
  | none => pure listed

/-- One round of the question; `none` asks again. -/
def understand (can_id : Nat) (joints : List String) (assigned : Dict String Nat) (reply : Text) :
    Except (Exception K) (Option Answer) := do
  let reply := stripped reply
  if reply = ['r'] then pure (some .repeat_)
  else if reply = ['s'] then pure (some (.choice .skip))
  else if reply = ['q'] then pure (some (.choice .quit))
  else
    match ← named_joint unicode joints reply with
    | none => pure none
    | some joint =>
      match assigned.get joint with
      | some owner => pure (if owner ≠ can_id then none else some (.choice (.joint joint)))
      | none => pure (some (.choice (.joint joint)))

/-- Ask which joint moved, and what is left of the replies. -/
def ask_joint (can_id : Nat) (joints : List String) (assigned : Dict String Nat) :
    List (Reply K) → Outcome (Exception K) Answer × List (Reply K)
  | [] => (.running, [])
  | .eof :: replies => (.returned (.choice .quit), replies)
  | .raised e :: replies => (.raised e, replies)
  | .line text :: replies =>
    match understand unicode can_id joints assigned text with
    | .error e => (.raised e, replies)
    | .ok (some answer) => (.returned answer, replies)
    | .ok none => ask_joint can_id joints assigned replies

end Ask

structure IdentifyCommand (K : Type) [Field K] [LinearOrder K] extends IdentifyArgs K where
  interface : String
  motors : Option String := none
  ids : List Nat := []
  write : Bool := false

/-- What the command finds around it. -/
structure Surroundings (K O : Type) [Preorder K] where
  host : Host K O
  bus : Bus K
  unicode : Char → CharKind
  default_path : Except String String
  /-- What `check_interface` makes of the interface: the details, as `missing_motor_help` puts
  them, or an exception. -/
  interface : Except (Exception K) (List String)

/-- The state of a run: the bus, the disk, the replies to come and the local variable `assigned`,
with every value that it has had. -/
structure Bench (K : Type) where
  session : Session K
  disk : Disk
  replies : List (Reply K)
  assigned : Dict String Nat := []
  steps : List (Dict String Nat) := []

def Host.machine {K O : Type} (host : Host K O) (disk : Disk) (default_path : Except String String) :
    Machine O where
  file path :=
    match host.realpath path with
    | .ok real_path => host.file disk real_path
    | .error _ => .unreadable "No such file or directory"
  decode := host.decode
  py := host.py
  default_path := default_path

/-- `{joint: owner for joint, owner in assigned.items() if owner != can_id}` with the new item. -/
def assign (assigned : Dict String Nat) (joint : String) (can_id : Nat) : Dict String Nat :=
  Dict.set (assigned.filter fun item => item.2 ≠ can_id) joint can_id

/-- The assignments that motors.yaml does not have; the joints are those of the file. -/
def changes (config : MotorConfig) (assigned : Dict String Nat) : Dict String Int :=
  (assigned.filter fun item => (config.get item.1).any fun motor => motor.can_id ≠ item.2).map
    fun item => (item.1, (item.2 : Int))

section Command
variable {K O : Type} [Field K] [LinearOrder K]

def BUS_CHECK_TIME : Dbl K := .fin 0.3

def refuse_if_busy (interface : String) (heard : Heard K) : Except (Exception K) Unit :=
  if heard.commanded ≠ [] then
    .error (.can_check_error ("Another program is sending commands to CAN ID(s) " ++
      ", ".intercalate (heard.commanded.mergeSort.map toString) ++ s!" on {interface}, probably the " ++
      "robot (robot.launch.py or iot-robot.service). Stop it first (Ctrl-C, or " ++
      "`sudo systemctl stop iot-robot`): two programs commanding the same motor fight each other."))
  else .ok ()

def on_bus {α : Type} (p : Tool K α) : Prog (Bench K) (Exception K) α :=
  zoom Bench.session (fun s session => { s with session := session }) p

def on_disk {α : Type} (p : Prog Disk (Exception K) α) : Prog (Bench K) (Exception K) α :=
  zoom Bench.disk (fun s disk => { s with disk := disk }) p

variable [FloorRing K] (env : Surroundings K O) (args : IdentifyCommand K)

def ask (can_id : Nat) (joints : List String) : Prog (Bench K) (Exception K) Answer := fun s =>
  let (answer, replies) := ask_joint env.unicode can_id joints s.assigned s.replies
  (answer, { s with replies := replies })

/-- `while answer == "repeat"`. -/
def identify_motor (can_id : Nat) (joints : List String) : Prog (Bench K) (Exception K) Choice :=
  forever (fun () => do
    on_bus (wiggle env.bus can_id args.toIdentifyArgs)
    match ← ask env can_id joints with
    | .repeat_ => pure (.inr ())
    | .choice choice => pure (.inl choice)) (env.bus.rounds + 1) ()

/-- `for can_id in ids`. -/
def identify_motors (joints : List String) : List Nat → Prog (Bench K) (Exception K) Unit
  | [] => pure ()
  | can_id :: ids => do
    match ← identify_motor env args can_id joints with
    | .quit => pure ()
    | .skip => identify_motors joints ids
    | .joint joint => do
      update fun s =>
        { s with
          assigned := assign s.assigned joint can_id
          steps := s.steps ++ [assign s.assigned joint can_id] }
      identify_motors joints ids

/-- The end of the command: the changes are written if that is asked for. -/
def write_changes (host : Host K O) (path : String) (write : Bool) (changes : Dict String Int) :
    Prog (Bench K) (Exception K) Int :=
  if changes = [] then pure 0
  else if write = false then pure 0
  else
    handle (do
        let _ ← on_disk (write_can_ids host path changes)
        pure 0)
      fun e =>
        match e with
        | .motor_config_error _ => pure 1
        | e => raise e

/-- The command once motors.yaml is loaded. -/
def identify_joints (config : MotorConfig) : Prog (Bench K) (Exception K) Int := do
  let help ← lift env.interface
  let heard ← on_bus (listen env.bus BUS_CHECK_TIME [] false)
  lift (refuse_if_busy args.interface heard)
  let ids := if args.ids ≠ [] then args.ids else heard.status.keys.mergeSort
  if ids = [] then
    raise (.can_check_error ("\n".intercalate
      (s!"No motor sends status frames on {args.interface}." :: help)))
  else do
    update fun s => { s with assigned := [], steps := [] }
    on_bus (open_socket env.bus)
    identify_motors env args (config.motors.map Motor.joint) ids
    let changes ← Prog.read fun s => changes config s.assigned
    write_changes env.host config.path args.write changes

def cmd_identify : Prog (Bench K) (Exception K) Int := do
  let disk ← Prog.read Bench.disk
  let config ← lift (load (env.host.machine disk env.default_path) args.motors false)
  identify_joints env args config

end Command

/-- Distinct joints have distinct CAN IDs. -/
def OneToOne (assigned : Dict String Nat) : Prop :=
  assigned.keys.Nodup ∧ ∀ joint joint' can_id,
    assigned.get joint = some can_id → assigned.get joint' = some can_id → joint = joint'

theorem get_filter {assigned : Dict String Nat} (hkeys : assigned.keys.Nodup)
    {p : String × Nat → Bool} {joint : String} {can_id : Nat} :
    Dict.get (assigned.filter p) joint = some can_id ↔
      assigned.get joint = some can_id ∧ p (joint, can_id) = true := by
  have hfilter : ((assigned.filter p).map Prod.fst).Nodup :=
    hkeys.sublist (List.filter_sublist.map Prod.fst)
  unfold Dict.get
  rw [lookup_iff_mem hfilter, lookup_iff_mem hkeys, List.mem_filter]

theorem OneToOne.assign {assigned : Dict String Nat} (h : OneToOne assigned) (joint : String)
    (can_id : Nat) : OneToOne (assign assigned joint can_id) := by
  obtain ⟨hkeys, hinjective⟩ := h
  have hold {j : String} {id : Nat} : Dict.get (assigned.filter fun item => item.2 ≠ can_id) j = some id ↔
      assigned.get j = some id ∧ id ≠ can_id := by
    rw [get_filter hkeys, decide_eq_true_iff]
  unfold Tool.assign
  refine ⟨Dict.nodup_keys_set (hkeys.sublist (List.filter_sublist.map Prod.fst)) joint can_id, ?_⟩
  intro j j' id hj hj'
  rw [Dict.get_set] at hj hj'
  split at hj <;> split at hj'
  · exact (‹j = joint›).trans (‹j' = joint›).symm
  · cases hj
    exact absurd rfl (hold.mp hj').2
  · cases hj'
    exact absurd rfl (hold.mp hj).2
  · exact hinjective j j' id (hold.mp hj).1 (hold.mp hj').1

theorem assign_keys {assigned : Dict String Nat} {joints : List String}
    (h : ∀ joint ∈ assigned.keys, joint ∈ joints) {joint : String} (hjoint : joint ∈ joints)
    (can_id : Nat) : ∀ j ∈ (assign assigned joint can_id).keys, j ∈ joints := by
  intro j hj
  rcases (Dict.mem_keys_set _ joint j can_id).mp hj with rfl | hj
  · exact hjoint
  · exact h j ((List.filter_sublist.map Prod.fst).subset hj)

section Listed
variable {K : Type} {unicode : Char → CharKind} {can_id : Nat} {joints : List String}
  {assigned : Dict String Nat}

theorem named_joint_listed {reply : Text} {joint : String}
    (h : (named_joint unicode joints reply : Except (Exception K) _) = .ok (some joint)) :
    joint ∈ joints := by
  have hlisted (h : (if String.ofList reply ∈ joints then some (String.ofList reply) else none) =
      some joint) : joint ∈ joints := by
    split at h
    · cases h
      assumption
    · cases h
  unfold named_joint at h
  cases hnumber : (reply_number unicode reply : Except (Exception K) (Option Nat)) with
  | error e =>
    rw [hnumber] at h
    cases h
  | ok number =>
    rw [hnumber] at h
    cases number with
    | none => exact hlisted (Except.ok.inj h)
    | some number =>
      change (if 1 ≤ number ∧ number ≤ joints.length then pure joints[number - 1]? else pure _ :
        Except (Exception K) (Option String)) = _ at h
      split at h
      · exact List.mem_of_getElem? (Except.ok.inj h)
      · exact hlisted (Except.ok.inj h)

theorem understand_listed {reply : Text} {joint : String}
    (h : (understand unicode can_id joints assigned reply : Except (Exception K) _) =
      .ok (some (.choice (.joint joint)))) : joint ∈ joints := by
  unfold understand at h
  dsimp only at h
  split at h
  · cases h
  split at h
  · cases h
  split at h
  · cases h
  cases hnamed : (named_joint unicode joints (stripped reply) : Except (Exception K) _) with
  | error e =>
    rw [hnamed] at h
    cases h
  | ok named =>
    rw [hnamed] at h
    cases named with
    | none => cases h
    | some name =>
      have hname := named_joint_listed hnamed
      change (match assigned.get name with
        | some owner => pure (if owner ≠ can_id then none else some (.choice (.joint name)))
        | none => pure (some (.choice (.joint name))) : Except (Exception K) (Option Answer)) = _ at h
      split at h
      · have hanswer := Except.ok.inj h
        split at hanswer
        · cases hanswer
        · cases hanswer
          exact hname
      · cases h
        exact hname

/-- A joint that is chosen is one of the file. -/
theorem ask_joint_listed (replies : List (Reply K)) {joint : String}
    (h : (ask_joint unicode can_id joints assigned replies).1 = .returned (.choice (.joint joint))) :
    joint ∈ joints := by
  induction replies with
  | nil => cases h
  | cons reply replies ih =>
    cases reply with
    | eof => cases h
    | raised e => cases h
    | line text =>
      unfold ask_joint at h
      split at h
      · cases h
      · rename_i answer hanswer
        cases h
        exact understand_listed hanswer
      · exact ih h

end Listed

/-- While motors are identified the disk stays as it is, and every assignment is one to one. -/
structure Identifying {K : Type} (disk : Disk) (joints : List String) (s : Bench K) : Prop where
  disk : s.disk = disk
  one_to_one : OneToOne s.assigned
  listed : ∀ joint ∈ s.assigned.keys, joint ∈ joints
  steps : ∀ assigned ∈ s.steps, OneToOne assigned

section Loops
variable {K O : Type} [Field K] [LinearOrder K] {disk : Disk} {joints : List String}

omit [Field K] [LinearOrder K] in
theorem on_bus_keeps {α : Type} (p : Tool K α) :
    Keeps (Identifying disk joints) (fun _ => Identifying disk joints) (on_bus p) := by
  refine zoom_rule (I := fun _ => True) (T := fun _ _ => True) (fun _ _ => trivial) (fun _ _ => trivial) ?_
  intro s o session hs _
  exact Kept.all o ⟨hs.disk, hs.one_to_one, hs.listed, hs.steps⟩

variable [FloorRing K] (env : Surroundings K O) (args : IdentifyCommand K)

/-- The invariant, and a joint that is chosen is one of the file. -/
def Chosen {α : Type} (disk : Disk) (joints : List String) (name : α → Option String)
    (o : Outcome (Exception K) α) (s : Bench K) : Prop :=
  Identifying disk joints s ∧ ∀ a joint, o = .returned a → name a = some joint → joint ∈ joints

def Choice.name : Choice → Option String
  | .joint j => some j
  | _ => none

def Answer.name : Answer → Option String
  | .repeat_ => none
  | .choice c => c.name

omit [Field K] [FloorRing K] in
theorem ask_chooses (can_id : Nat) :
    Triple (Identifying disk joints) (ask env can_id joints) (Chosen disk joints Answer.name) := by
  intro s hs
  refine ⟨⟨hs.disk, hs.one_to_one, hs.listed, hs.steps⟩, ?_⟩
  intro answer joint hanswer hname
  cases answer with
  | repeat_ => cases hname
  | choice c =>
    cases c with
    | joint name =>
      cases hname
      exact ask_joint_listed s.replies hanswer
    | skip => cases hname
    | quit => cases hname

theorem identify_motor_chooses (can_id : Nat) : Triple (Identifying disk joints)
    (identify_motor env args can_id joints) (Chosen disk joints Choice.name) := by
  have haborts {α β : Type} {name : α → Option String} {name' : β → Option String} :
      Aborts (Chosen (K := K) disk joints name) (Chosen disk joints name') :=
    ⟨fun _ _ h => ⟨h.1, fun _ _ heq => by cases heq⟩, fun _ h => ⟨h.1, fun _ _ heq => by cases heq⟩⟩
  unfold identify_motor
  refine forever_rule (fun _ _ => Identifying disk joints)
    (R := fun _ => Chosen disk joints fun r : Choice ⊕ Unit => r.getLeft?.bind Choice.name) ?_
    (fun _ _ _ h => h.1) ?_ (fun _ => haborts) (fun _ _ h => ⟨h, fun _ _ heq => by cases heq⟩) _ ()
  · intro _ _
    refine bind_rule (on_bus_keeps _) (fun _ => ?_) ⟨?_, ?_⟩
    · refine bind_rule (R := Chosen disk joints Answer.name) ?_ (fun answer => ?_) haborts
      · exact (ask_chooses env can_id).weaken (fun _ h => h.any) fun _ _ h => h
      · rintro s ⟨hs, hname⟩
        refine ⟨?_, ?_⟩
        · cases answer <;> exact hs
        · intro r joint heq hjoint
          cases answer with
          | repeat_ =>
            cases heq
            cases hjoint
          | choice c =>
            cases heq
            exact hname _ joint rfl hjoint
    · exact fun _ _ h => ⟨h.any, fun _ _ heq => by cases heq⟩
    · exact fun _ h => ⟨h.any, fun _ _ heq => by cases heq⟩
  · rintro _ c s ⟨hs, hname⟩
    refine ⟨hs, ?_⟩
    rintro _ joint ⟨⟩ hjoint
    exact hname _ joint rfl hjoint

theorem identify_motors_keeps (ids : List Nat) : Keeps (Identifying disk joints)
    (fun _ => Identifying disk joints) (identify_motors env args joints ids) := by
  induction ids with
  | nil => exact keeps_ret ()
  | cons can_id ids ih =>
    unfold identify_motors
    refine bind_rule (identify_motor_chooses env args can_id) (fun choice => ?_) ⟨?_, ?_⟩
    · rintro s ⟨hs, hname⟩
      cases choice with
      | quit => exact keeps_ret () s hs
      | skip => exact ih s hs
      | joint joint =>
        have hjoint := hname _ joint rfl rfl
        refine ih _ ⟨hs.disk, hs.one_to_one.assign joint can_id, assign_keys hs.listed hjoint can_id, ?_⟩
        intro assigned hassigned
        rcases List.mem_append.mp hassigned with hassigned | hassigned
        · exact hs.steps assigned hassigned
        · rw [List.mem_singleton.mp hassigned]
          exact hs.one_to_one.assign joint can_id
    · exact fun e s h => Kept.all _ h.1
    · exact fun s h => Kept.all _ h.1

/-- How the command ends: nothing is written, or `write_can_ids` is called with the changes. -/
structure Concluded (disk : Disk) (s : Bench K) : Prop where
  one_to_one : OneToOne s.assigned
  steps : ∀ assigned ∈ s.steps, OneToOne assigned
  disk : s.disk = disk ∨ args.write = true ∧ ∃ config : MotorConfig,
    (load (env.host.machine disk env.default_path) args.motors false :
      Except (Exception K) MotorConfig) = .ok config ∧
    (∀ joint ∈ s.assigned.keys, joint ∈ config.motors.map Motor.joint) ∧
    s.disk = (write_can_ids env.host config.path (changes config s.assigned) disk).2

omit [Field K] [LinearOrder K] [FloorRing K] in
/-- Writing touches the disk alone. -/
theorem write_changes_disk (host : Host K O) (path : String) (write : Bool)
    (changes : Dict String Int) (s : Bench K) :
    let s' := (write_changes host path write changes s).2
    s'.assigned = s.assigned ∧ s'.steps = s.steps ∧
      (s'.disk = s.disk ∨ write = true ∧ s'.disk = (write_can_ids host path changes s.disk).2) := by
  unfold write_changes
  by_cases hnone : changes = []
  · rw [if_pos hnone]
    exact ⟨rfl, rfl, .inl rfl⟩
  rw [if_neg hnone]
  cases write with
  | false => exact ⟨rfl, rfl, .inl rfl⟩
  | true =>
    rw [if_neg Bool.noConfusion]
    have hbody : Triple (fun t => t = s)
        (do let _ ← on_disk (write_can_ids host path changes); pure 0 :
          Prog (Bench K) (Exception K) Int)
        fun _ t => t.assigned = s.assigned ∧ t.steps = s.steps ∧
          t.disk = (write_can_ids host path changes s.disk).2 := by
      refine bind_rule (R := fun _ t => t.assigned = s.assigned ∧ t.steps = s.steps ∧
        t.disk = (write_can_ids host path changes s.disk).2) ?_ (fun _ _ h => h)
        ⟨fun _ _ h => h, fun _ h => h⟩
      rintro _ rfl
      exact ⟨rfl, rfl, rfl⟩
    obtain ⟨hassigned, hsteps, hdisk⟩ := handle_rule (Q := fun _ t => t.assigned = s.assigned ∧
      t.steps = s.steps ∧ t.disk = (write_can_ids host path changes s.disk).2)
      (h := fun e => match e with
        | .motor_config_error _ => pure 1
        | e => raise e)
      hbody (fun _ _ h => h) (fun e _ h => by cases e <;> exact h) (fun _ h => h) s rfl
    exact ⟨hassigned, hsteps, .inr ⟨rfl, hdisk⟩⟩

omit [FloorRing K] in
variable {env args} in
theorem Identifying.concluded {s : Bench K} (h : Identifying disk joints s) :
    Concluded env args disk s := ⟨h.one_to_one, h.steps, .inl h.disk⟩

theorem identify_joints_concludes {config : MotorConfig}
    (hload : (load (env.host.machine disk env.default_path) args.motors false :
      Except (Exception K) MotorConfig) = .ok config) :
    Triple (Identifying disk (config.motors.map Motor.joint)) (identify_joints env args config)
      (fun _ => Concluded env args disk) := by
  have habort {α β : Type} : Aborts
      (Kept (Identifying disk (config.motors.map Motor.joint)) (fun _ : Exception K =>
        Identifying disk (config.motors.map Motor.joint)) (α := α))
      (fun _ => Concluded env args disk : Outcome (Exception K) β → Bench K → Prop) :=
    ⟨fun _ _ h => h.any.concluded, fun _ h => h.any.concluded⟩
  have hempty : OneToOne [] := ⟨List.nodup_nil, fun _ _ _ h => by cases h⟩
  unfold identify_joints
  refine lift_bind_rule (fun help _ => ?_) fun _ _ _ h => h.concluded
  refine bind_rule (on_bus_keeps _) (fun heard => ?_) habort
  refine lift_bind_rule (fun _ _ => ?_) fun _ _ _ h => h.any.concluded
  dsimp only
  generalize (if args.ids ≠ [] then args.ids else heard.status.keys.mergeSort) = ids
  by_cases hids : ids = []
  · rw [if_pos hids]
    exact fun _ h => h.any.concluded
  rw [if_neg hids]
  refine bind_rule (R := Kept (Identifying disk (config.motors.map Motor.joint)) fun _ =>
    Identifying disk (config.motors.map Motor.joint)) (fun s h => ?_) (fun _ => ?_) habort
  · exact Kept.all _ ⟨h.any.disk, hempty, fun _ h => absurd h List.not_mem_nil,
      fun _ h => absurd h List.not_mem_nil⟩
  refine bind_rule ((on_bus_keeps _).weaken (fun _ h => h.any) fun _ _ h => h) (fun _ => ?_) habort
  refine bind_rule ((identify_motors_keeps env args ids).weaken (fun _ h => h.any) fun _ _ h => h)
    (fun _ => ?_) habort
  intro s h
  have hs := h.any
  obtain ⟨hassigned, hsteps, hdisk⟩ :=
    write_changes_disk env.host config.path args.write (changes config s.assigned) s
  show Concluded env args disk (write_changes _ _ _ _ s).2
  constructor
  · rw [hassigned]
    exact hs.one_to_one
  · rw [hsteps]
    exact hs.steps
  · rcases hdisk with hdisk | ⟨hwrite, hdisk⟩
    · exact .inl (hdisk.trans hs.disk)
    · refine .inr ⟨hwrite, config, hload, ?_, ?_⟩
      · rw [hassigned]
        exact hs.listed
      · rw [hassigned, hdisk, hs.disk]

theorem cmd_identify_concludes (session : Session K) (disk : Disk) (replies : List (Reply K)) :
    Triple (fun s => s = { session := session, disk := disk, replies := replies })
      (cmd_identify env args) (fun _ => Concluded env args disk) := by
  have hempty : OneToOne [] := ⟨List.nodup_nil, fun _ _ _ h => by cases h⟩
  have hstart (joints : List String) : Identifying disk joints
      { session := session, disk := disk, replies := replies : Bench K } :=
    ⟨rfl, hempty, fun _ h => absurd h List.not_mem_nil, fun _ h => absurd h List.not_mem_nil⟩
  unfold cmd_identify
  refine read_bind_rule fun disk' => lift_bind_rule (fun config hload => ?_) fun e _ s hs => ?_
  · rintro s ⟨rfl, rfl⟩
    exact identify_joints_concludes env args hload _ (hstart _)
  · rw [hs.1]
    exact (hstart []).concluded

end Loops

/-- motors.yaml is a valid file. -/
structure ListedFile {K O : Type} [Preorder K] (env : Surroundings K O) (motors : Option String)
    (disk : Disk) (real_path : String) (stored : Stored) (text : String) (value : Value O)
    (config : MotorConfig) : Prop where
  path : motors_path (env.host.machine disk env.default_path) motors = .ok config.path
  resolved : env.host.realpath config.path = .ok real_path
  there : disk real_path = some stored
  readable : env.host.unreadable real_path = none
  decoded : env.host.decode stored.bytes = some text
  loaded : load_yaml env.host.py text = .ok value
  unique : UniqueKeys value
  accepted : (parse env.host.py text config.path false : Except (Exception K) MotorConfig) = .ok config

/-- The file is unchanged, or every identified joint has its identified CAN ID, every other joint
keeps its old one and no two joints share one. -/
def IdentifiedOnly {K O : Type} (host : Host K O) (disk : Disk) (real_path : String) (stored : Stored)
    (config : MotorConfig) (assigned : Dict String Nat) (disk' : Disk) : Prop :=
  disk' real_path = some stored ∨ ∃ new bytes config', host.encode new = some bytes ∧
    disk' = Function.update disk real_path (some ⟨bytes, stored.mode⟩) ∧
    (parse host.py new real_path false : Except (Exception K) MotorConfig) = .ok config' ∧
    (∀ joint can_id, assigned.get joint = some can_id →
      ∃ motor, config'.get joint = some motor ∧ motor.can_id = can_id) ∧
    (∀ motor ∈ config.motors, motor.joint ∉ assigned.keys →
      ∃ motor', config'.get motor.joint = some motor' ∧ motor'.can_id = motor.can_id) ∧
    (config'.motors.map Motor.can_id).Nodup

section File
variable {K O : Type} [Preorder K] {env : Surroundings K O} {motors : Option String} {disk : Disk}
  {real_path text : String} {stored : Stored} {value : Value O} {config : MotorConfig}
  {assigned : Dict String Nat}

theorem ListedFile.load (h : ListedFile env motors disk real_path stored text value config) :
    (load (env.host.machine disk env.default_path) motors false :
      Except (Exception K) MotorConfig) = .ok config := by
  have hfile : (env.host.machine disk env.default_path).file config.path = .bytes stored.bytes := by
    unfold Host.machine Host.file
    dsimp only
    rw [h.resolved]
    dsimp only
    rw [h.there, h.readable]
  have hread : (read_text (env.host.machine disk env.default_path) config.path :
      Except (Exception K) String) = .ok text := by
    unfold read_text
    rw [hfile]
    unfold Host.machine
    dsimp only
    rw [h.decoded]
  unfold Tool.load
  rw [h.path]
  unfold load_file
  dsimp only
  rw [hread]
  exact h.accepted

theorem get_listed {joint : String} (h : joint ∈ config.motors.map Motor.joint) :
    ∃ motor, config.get joint = some motor := by
  obtain ⟨motor, hmotor, hjoint⟩ := List.mem_map.mp h
  cases hget : config.get joint with
  | none => exact absurd (List.find?_eq_none.mp hget motor hmotor) (by simp [hjoint])
  | some first => exact ⟨first, rfl⟩

theorem mem_changes {item : String × Int} : item ∈ changes config assigned ↔
    ∃ can_id : Nat, (item.1, can_id) ∈ assigned ∧ item.2 = can_id ∧
      ∃ motor, config.get item.1 = some motor ∧ motor.can_id ≠ can_id := by
  unfold changes
  simp only [List.mem_map, List.mem_filter, Option.any_eq_true, decide_eq_true_iff]
  constructor
  · rintro ⟨⟨joint, can_id⟩, ⟨hmem, motor, hget, hne⟩, rfl⟩
    exact ⟨can_id, hmem, rfl, motor, hget, hne⟩
  · rintro ⟨can_id, hmem, hid, motor, hget, hne⟩
    exact ⟨(item.1, can_id), ⟨hmem, motor, hget, hne⟩, Prod.ext rfl hid.symm⟩

/-- The write of the changes. -/
theorem write_identified {resolve : String → String}
    (h : ListedFile env motors disk real_path stored text value config) (hone : OneToOne assigned)
    (hlisted : ∀ joint ∈ assigned.keys, joint ∈ config.motors.map Motor.joint)
    (hreads : RereadsNumbers env.host.py resolve (changes config assigned) text)
    (hwhole : WholeValues (changes config assigned) text.toList) :
    IdentifiedOnly env.host disk real_path stored config assigned
      (write_can_ids env.host config.path (changes config assigned) disk).2 := by
  have hwritten := write_can_ids_written env.host disk config.path (changes config assigned) disk rfl
  generalize write_can_ids env.host config.path (changes config assigned) disk = run at hwritten
  obtain ⟨o, s⟩ := run
  cases hwritten with
  | raised e _ hnot hkept hs => exact .inl (hkept _ _ h.there)
  | returned real_path' stored' text' new bytes _ hrewrites hbytes hs =>
    obtain ⟨hresolved, hthere, -, hdecoded, hnew, -⟩ := hrewrites
    rw [h.resolved] at hresolved
    cases hresolved
    rw [h.there] at hthere
    cases hthere
    rw [h.decoded] at hdecoded
    cases hdecoded
    obtain ⟨new, config', rfl, hrewrite, hparse, hfound⟩ := new_text_ok hnew
    obtain ⟨hconsistent, hothers⟩ := others_kept hreads hwhole hrewrite h.loaded h.unique h.accepted
      hparse hfound
    refine .inr ⟨_, bytes, config', hbytes, hs, hparse, ?_, ?_, hconsistent.ids⟩
    · intro joint can_id hget
      have hmem := (lookup_iff_mem hone.1).mp hget
      obtain ⟨motor, hmotor⟩ := get_listed (hlisted joint (List.mem_map_of_mem hmem))
      by_cases hchanged : ∃ item ∈ changes config assigned, item.1 = joint
      · obtain ⟨item, hitem, rfl⟩ := hchanged
        obtain ⟨motor', hget', hid⟩ := unchanged_nil_iff.mp hfound item hitem
        obtain ⟨can_id', hmem', heq, -⟩ := mem_changes.mp hitem
        have hsame : assigned.get item.1 = some can_id' := (lookup_iff_mem hone.1).mpr hmem'
        rw [hget] at hsame
        cases hsame
        exact ⟨motor', hget', by omega⟩
      · -- the file has this CAN ID already
        have hkey : joint ∉ (changes config assigned).keys := by
          intro hkey
          obtain ⟨item, hitem, heq⟩ := List.mem_map.mp hkey
          exact hchanged ⟨item, hitem, heq⟩
        have hsame : motor.can_id = can_id := by
          by_contra hne
          exact hchanged ⟨(joint, can_id), mem_changes.mpr ⟨can_id, hmem, rfl, motor, hmotor, hne⟩, rfl⟩
        have hjoint : motor.joint = joint := by simpa using List.find?_some hmotor
        obtain ⟨motor', hget', hid⟩ := hothers motor (List.mem_of_find?_eq_some hmotor) (hjoint ▸ hkey)
        exact ⟨motor', hjoint ▸ hget', hid.trans hsame⟩
    · intro motor hmotor hother
      apply hothers motor hmotor
      intro hkey
      obtain ⟨item, hitem, heq⟩ := List.mem_map.mp hkey
      obtain ⟨can_id, hmem, -, -⟩ := mem_changes.mp hitem
      exact hother (heq ▸ List.mem_map_of_mem hmem)

end File

/-- Every assignment is one to one; and if the values that are replaced are whole values, or the
file is not written, the identified joints get their CAN IDs and nothing else changes. -/
theorem identify_writes_identified {K O : Type} [Field K] [LinearOrder K] [FloorRing K]
    (env : Surroundings K O) (args : IdentifyCommand K) (session : Session K) (disk : Disk)
    (replies : List (Reply K)) :
    let s := (cmd_identify env args { session := session, disk := disk, replies := replies }).2
    OneToOne s.assigned ∧ (∀ assigned ∈ s.steps, OneToOne assigned) ∧
    ∀ (resolve : String → String) (real_path : String) (stored : Stored) (text : String)
      (value : Value O) (config : MotorConfig),
      ListedFile env args.motors disk real_path stored text value config →
      RereadsNumbers env.host.py resolve (changes config s.assigned) text →
      (s.disk ≠ disk → WholeValues (changes config s.assigned) text.toList) →
      IdentifiedOnly env.host disk real_path stored config s.assigned s.disk := by
  obtain ⟨hone, hsteps, hdisk⟩ := cmd_identify_concludes env args session disk replies _ rfl
  refine ⟨hone, hsteps, ?_⟩
  intro resolve real_path stored text value config hfile hreads hwhole
  by_cases hwritten : (cmd_identify env args
      { session := session, disk := disk, replies := replies }).2.disk = disk
  · refine .inl ?_
    rw [hwritten]
    exact hfile.there
  obtain ⟨-, config', hload, hlisted, hdisk⟩ := hdisk.resolve_left hwritten
  rw [hfile.load] at hload
  cases hload
  rw [hdisk]
  exact write_identified hfile hone hlisted hreads (hwhole hwritten)

section Examples

/-- A clock that advances by a second a reading. -/
def every_second : SteadyClock Rat where
  reading i := i
  mono := Nat.mono_cast
  reach t := ⌈t⌉.toNat
  reach_spec t := (Int.le_ceil t).trans (by exact_mod_cast Int.self_le_toNat ⌈t⌉)

def tabletop (host : Host Rat Unit) : Surroundings Rat Unit where
  host := host
  bus := { clock := every_second, calls := fun _ => true, receives := fun _ => .timeout, rounds := 1 }
  unicode ch := if ch.isDigit then .decimal (ch.toNat - '0'.toNat) else .other
  default_path := .error "Cannot find the iot_robot_bringup package."
  interface := .ok []

/-- `identify --ids 20 --write`. -/
def identify_20 : IdentifyCommand Rat :=
  { identify_defaults with
    interface := "can0"
    motors := some "/ws/motors.yaml"
    ids := [20]
    write := true }

/-- Motor 20 moves the joint that the file lists first. -/
def first_joint (host : Host Rat Unit) (disk : Disk) : Bench Rat :=
  (cmd_identify (tabletop host) identify_20
    { session := { commanded := .fin 0 }, disk := disk, replies := [.line ['1', '\n']] }).2

def wheel_config : MotorConfig := ⟨"/ws/motors.yaml",
  [⟨"wheel_joint_left", 12, 1, false⟩, ⟨"wheel_joint_right", 13, -1, false⟩]⟩

theorem wheel_listed : ListedFile (tabletop wheel_host) (some "/ws/motors.yaml") wheel_disk
    "/ws/motors.yaml" ⟨char_bytes (wheel_text 12), 0o644⟩ (wheel_text 12)
    (layout_value wheel_host.py plain_tag (wheel_layout 12 13)) wheel_config := by
  have hclean := ((parse_layout_iff wheel_reads.scalars wheel_reads.old "/ws/motors.yaml" false
    wheel_config).mp (wheel_file.accepted)).1
  exact
    { path := rfl
      resolved := rfl
      there := rfl
      readable := rfl
      decoded := wheel_file.decoded
      loaded := (load_layout_iff wheel_reads.scalars wheel_reads.old _).mpr ⟨hclean, rfl⟩
      unique := hclean.unique
      accepted := wheel_file.accepted }

theorem wheel_renumbered :
    Renumbered plain_tag [("wheel_joint_left", 20)] (wheel_document 12 13) (wheel_document 20 13) := by
  have hkept (text : String) : Renumbered plain_tag [("wheel_joint_left", 20)] (plain_scalar text)
      (plain_scalar text) := .kept _ _ _ _
  have hleft : Renumbered plain_tag [("wheel_joint_left", 20)] (entry_document 12 1)
      (entry_document 20 1) :=
    .mapping _ _ _ _ (.cons _ _ _ _ _ _ _ _ (.number _ _ _ _ _ _ List.mem_cons_self rfl)
      (.cons _ _ _ _ _ _ _ _ (hkept _) .nil))
  have hright : Renumbered plain_tag [("wheel_joint_left", 20)] (entry_document 13 (-1))
      (entry_document 13 (-1)) :=
    .mapping _ _ _ _ (.cons _ _ _ _ _ _ _ _ (hkept _) (.cons _ _ _ _ _ _ _ _ (hkept _) .nil))
  exact .mapping _ _ _ _ (.cons _ _ _ _ _ _ _ _ (.mapping _ _ _ _ (.cons _ _ _ _ _ _ _ _ hleft
    (.cons _ _ _ _ _ _ _ _ hright .nil))) .nil)

theorem wheel_rereads : RereadsNumbers wheel_host.py plain_tag [("wheel_joint_left", 20)]
    (wheel_text 12) where
  scalars := wheel_reads.scalars
  same := by
    intro K new _ _ _ _ root root' _ hnew hroot hroot' _ _
    have hprint : (wheels_at 0 12 13).printable [("wheel_joint_left", 20)] = true := rfl
    have hended : (wheels_at 0 12 13).Ended true := fun h => by cases h
    unfold wheel_text text_at at hnew
    rw [String.toList_ofList, rewrite_text_layout _ _ rfl hended, hprint] at hnew
    obtain rfl := Except.ok.inj hnew
    have hold := wheel_composes 12 (.inl rfl)
    have hfresh := wheel_composes 20 (.inr rfl)
    unfold wheel_text text_at at hfresh
    rw [wheels_replace] at hroot'
    rw [show wheel_host.py = table_yaml wheel_documents from rfl] at hroot hroot'
    rw [hold] at hroot
    rw [hfresh] at hroot'
    cases hroot
    cases hroot'
    exact wheel_renumbered

/-- The left wheel is identified as motor 20. -/
theorem wheel_identified : (first_joint wheel_host wheel_disk).assigned = [("wheel_joint_left", 20)] ∧
    IdentifiedOnly wheel_host wheel_disk "/ws/motors.yaml" ⟨char_bytes (wheel_text 12), 0o644⟩
      wheel_config (first_joint wheel_host wheel_disk).assigned
      (first_joint wheel_host wheel_disk).disk := by
  have hassigned : (first_joint wheel_host wheel_disk).assigned = [("wheel_joint_left", 20)] := by
    decide +kernel
  have hchanges : changes wheel_config (first_joint wheel_host wheel_disk).assigned =
      [("wheel_joint_left", 20)] := by
    rw [hassigned]
    decide
  obtain ⟨-, -, h⟩ := identify_writes_identified (tabletop wheel_host) identify_20
    { commanded := .fin 0 } wheel_disk [.line ['1', '\n']]
  have hwhole : WholeValues [("wheel_joint_left", 20)] (wheel_text 12).toList := by
    unfold WholeValues
    decide +kernel
  unfold first_joint at hassigned hchanges ⊢
  have hidentified := h plain_tag _ _ _ _ _ wheel_listed
  rw [hchanges] at hidentified
  exact ⟨hassigned, hidentified wheel_rereads fun _ => hwhole⟩

/-- Flow style over several lines; behind the CAN ID stands another joint without a blank. -/
def flow_text (value : String) : String :=
  "motors: \x7b\n  wheel_joint_left:\n   \x7bdirection: 1,\n    can_id: " ++ value ++
    "\n    \x7d, \"wheel_joint_right\": \x7b\"can_id\": 11, \"direction\": 1\x7d\x7d\n"

def flow_old : String := flow_text "12\x7d,\"gizmo_yaw_joint\":\x7b\"can_id\":10,\"direction\":1"

def flow_new : String := flow_text "20"

def flow_entry (can_id : String) : Node :=
  .mapping "" [(plain_scalar "can_id", plain_scalar can_id), (plain_scalar "direction", plain_scalar "1")]

def flow_left (can_id : String) : Node × Node :=
  (plain_scalar "wheel_joint_left",
    .mapping "" [(plain_scalar "direction", plain_scalar "1"), (plain_scalar "can_id", plain_scalar can_id)])

def flow_document (joints : List (Node × Node)) : Node :=
  .mapping "" [(plain_scalar "motors", .mapping "" joints)]

def flow_root : Node :=
  flow_document [flow_left "12", (plain_scalar "gizmo_yaw_joint", flow_entry "10"),
    (plain_scalar "wheel_joint_right", flow_entry "11")]

def flow_documents : Dict String Node :=
  [(flow_old, flow_root),
    (flow_new, flow_document [flow_left "20", (plain_scalar "wheel_joint_right", flow_entry "11")])]

def flow_host : Host Rat Unit := { wheel_host with py := table_yaml flow_documents }

def flow_disk : Disk := fun path =>
  if path = "/ws/motors.yaml" then some ⟨char_bytes flow_old, 0o644⟩ else none

def flow_config : MotorConfig := ⟨"/ws/motors.yaml",
  [⟨"wheel_joint_left", 12, 1, false⟩, ⟨"gizmo_yaw_joint", 10, 1, false⟩,
    ⟨"wheel_joint_right", 11, 1, false⟩]⟩

def flow_items (can_id : Int) : Items Unit :=
  [(.str "can_id", .atom (.int can_id)), (.str "direction", .atom (.int 1))]

def flow_value : Value Unit :=
  .dict [(.str "motors", .dict
    [(.str "wheel_joint_left", .dict [(.str "direction", .atom (.int 1)), (.str "can_id", .atom (.int 12))]),
      (.str "gizmo_yaw_joint", .dict (flow_items 10)), (.str "wheel_joint_right", .dict (flow_items 11))])]

theorem flow_listed : ListedFile (tabletop flow_host) (some "/ws/motors.yaml") flow_disk
    "/ws/motors.yaml" ⟨char_bytes flow_old, 0o644⟩ flow_old flow_value flow_config where
  path := rfl
  resolved := rfl
  there := rfl
  readable := rfl
  decoded := by decide +kernel
  loaded := by
    have hget : flow_documents.get flow_old = some flow_root := List.lookup_cons_self
    have hcompose : (table_yaml flow_documents).compose flow_old = .ok (some flow_root) := by
      unfold table_yaml
      dsimp only
      rw [hget]
    show load_yaml (table_yaml flow_documents) flow_old = _
    unfold load_yaml
    rw [hcompose]
    rfl
  unique := by
    unfold flow_value flow_items
    simp [uniqueKeys_dict_iff, uniqueKeys_atom]
  accepted := by decide +kernel

/-- The left wheel is identified as motor 20, and the entry of the gizmo is gone. -/
theorem flow_joint_lost : ∃ value,
    ListedFile (tabletop flow_host) (some "/ws/motors.yaml") flow_disk "/ws/motors.yaml"
      ⟨char_bytes flow_old, 0o644⟩ flow_old value flow_config ∧
    ¬ IdentifiedOnly flow_host flow_disk "/ws/motors.yaml" ⟨char_bytes flow_old, 0o644⟩ flow_config
      (first_joint flow_host flow_disk).assigned (first_joint flow_host flow_disk).disk := by
  refine ⟨flow_value, flow_listed, ?_⟩
  have hrun : (first_joint flow_host flow_disk).disk "/ws/motors.yaml" =
        some ⟨char_bytes flow_new, 0o644⟩ ∧
      (first_joint flow_host flow_disk).assigned = [("wheel_joint_left", 20)] := by decide +kernel
  have hbytes : char_bytes flow_new ≠ char_bytes flow_old := by decide +kernel
  obtain ⟨hdisk, hassigned⟩ := hrun
  rintro (hsame | ⟨new, bytes, config, hencode, hput, hparse, -, hothers, -⟩)
  · rw [hdisk] at hsame
    exact hbytes (Stored.mk.inj (Option.some.inj hsame)).1
  · rw [hput, Function.update_self] at hdisk
    rw [hassigned] at hothers
    have hstored := (Stored.mk.inj (Option.some.inj hdisk)).1
    have hencoded : char_bytes new = bytes := Option.some.inj hencode
    -- the new text is one of the two that PyYAML reads
    obtain ⟨root, hroot, -, -⟩ := parse_root hparse
    have hget : flow_documents.get new = some root := by
      unfold flow_host table_yaml at hroot
      dsimp only at hroot
      split at hroot
      · rename_i hsome
        cases hroot
        exact hsome
      · cases hroot
    rcases List.mem_pair.mp (Dict.mem_of_get hget) with heq | heq
    · rw [(Prod.mk.inj heq).1, hstored] at hencoded
      exact hbytes hencoded.symm
    · rw [(Prod.mk.inj heq).1] at hparse
      have hknown : (parse flow_host.py flow_new "/ws/motors.yaml" false :
          Except (Exception Rat) MotorConfig) = .ok ⟨"/ws/motors.yaml",
            [⟨"wheel_joint_left", 20, 1, false⟩, ⟨"wheel_joint_right", 11, 1, false⟩]⟩ := by
        decide +kernel
      rw [hknown] at hparse
      cases hparse
      obtain ⟨motor, hmotor, -⟩ := hothers ⟨"gizmo_yaw_joint", 10, 1, false⟩ (by decide) (by decide)
      cases hmotor

end Examples

end IotRobot.Tool
