import IotRobot.Tool.MotorConfig

/-!
# Which configurations are accepted

`parse` returns a configuration exactly if the file is valid, and the configuration lists the
motors of the file. The errors are collected in several passes; there are none exactly if every
pass has nothing to report.
-/

namespace IotRobot.Tool

open Lib Can

set_option autoImplicit false

namespace MotorConfig
variable (config : MotorConfig)

/-- The motor for a joint name, if the file lists it. -/
def get (joint : String) : Option Motor := config.motors.find? fun motor => motor.joint = joint

def wheels : List (Option Motor) := WHEEL_JOINTS.map config.get

/-- The gizmo motors the file lists (none, one or both). -/
def gizmo : List Motor := GIZMO_JOINTS.filterMap config.get

/-- The motors that the robot drives: the wheels, plus the gizmo in can mode. -/
def in_use {K : Type} (gizmo_mode : String) : Except (Exception K) (List (Option Motor)) :=
  if gizmo_mode ≠ "can" then .ok config.wheels
  else
    let missing := GIZMO_JOINTS.filter fun joint => config.get joint = none
    if missing ≠ [] then
      .error (.motor_config_error (s!"{config.path}: gizmo_mode can drives the gizmo motors, " ++
        "but the file has no entry for " ++ ", ".intercalate missing ++
        ". Add it, or use gizmo_mode:=fixed."))
    else .ok (config.wheels ++ config.gizmo.map some)

/-- The joint name of every CAN ID in the file. -/
def names : Dict Nat String :=
  (config.motors.map fun motor => (motor.can_id, motor.joint)).foldl
    (fun names item => names.set item.1 item.2) []

def joint_of (can_id : Nat) : Option String := config.names.get can_id

end MotorConfig

section Valid
variable {O : Type}

/-- A dictionary somewhere in a value. -/
inductive Within : Value O → Items O → Prop
  | here (items : Items O) : Within (.dict items) items
  | there {items items' : Items O} {key : Atom O} {value : Value O} (h : (key, value) ∈ items)
      (hwithin : Within value items') : Within (.dict items) items'

/-- No dictionary has a key twice. -/
def UniqueKeys (value : Value O) : Prop :=
  ∀ items, Within value items → (items.map Prod.fst).Nodup

theorem uniqueKeys_atom (a : Atom O) : UniqueKeys (.atom a) := by
  rintro items ⟨⟩

theorem uniqueKeys_dict {items : Items O} (hkeys : (items.map Prod.fst).Nodup)
    (hvalues : ∀ item ∈ items, UniqueKeys item.2) : UniqueKeys (.dict items) := by
  rintro items' (_ | ⟨hmem, hwithin⟩)
  · exact hkeys
  · exact hvalues _ hmem _ hwithin

/-- The items of a joint's entry. -/
structure ValidItems (joint : String) (items : Items O) : Prop where
  keys : ∀ item ∈ items, ∃ key ∈ KEYS, item.1 = .str key
  can_id : ∃ i, (.str "can_id", .atom (.int i)) ∈ items ∧ 1 ≤ i ∧ i ≤ 254
  direction : ∃ i, (.str "direction", .atom (.int i)) ∈ items ∧ (i = 1 ∨ i = -1)
  zero_on_start : ∀ value, (.str "zero_on_start", value) ∈ items →
    ∃ b, value = .atom (.bool b) ∧ (b = true → joint ∈ GIZMO_JOINTS)

def HasId (entry : Value O) (i : Int) : Prop :=
  ∃ items, entry = .dict items ∧ (.str "can_id", .atom (.int i)) ∈ items

/-- The joints that a file has to list. -/
def required (require_gizmo : Bool) : List String := if require_gizmo then JOINTS else WHEEL_JOINTS

/-- A joint with a valid entry. -/
def ValidEntry (item : Atom O × Value O) : Prop :=
  ∃ joint ∈ JOINTS, ∃ items, item = (.str joint, .dict items) ∧ ValidItems joint items

structure ValidEntries (require_gizmo : Bool) (entries : Items O) : Prop where
  entry : ∀ item ∈ entries, ValidEntry item
  listed : ∀ joint ∈ required require_gizmo, ∃ entry, (.str joint, entry) ∈ entries
  distinct : entries.Pairwise fun a b => ∀ i, HasId a.2 i → ¬ HasId b.2 i

/-- A mapping with the single key `motors`, whose value is a mapping of joints to entries. -/
def Valid (require_gizmo : Bool) (value : Value O) : Prop :=
  ∃ entries, value = .dict [(.str "motors", .dict entries)] ∧ ValidEntries require_gizmo entries

/-- An item of `motors` is about a motor. -/
def Lists (item : Atom O × Value O) (motor : Motor) : Prop :=
  ∃ items, item = (.str motor.joint, .dict items) ∧
    (.str "can_id", .atom (.int motor.can_id)) ∈ items ∧
    (.str "direction", .atom (.int motor.direction)) ∈ items ∧
    (motor.zero_on_start = true ↔ (.str "zero_on_start", .atom (.bool true)) ∈ items)

theorem is_str_iff {a : Atom O} {s : String} : a.is_str s = true ↔ a = .str s := by
  unfold Atom.is_str
  cases a with
  | str t => rw [beq_iff_eq, Atom.str.injEq]
  | _ => exact iff_of_false (fun h => by cases h) fun h => by cases h

theorem one_of_iff {a : Atom O} {names : List String} :
    a.one_of names = true ↔ ∃ s ∈ names, a = .str s := by
  unfold Atom.one_of
  rw [List.any_eq_true]
  simp only [is_str_iff]

/-- With unique keys `items.get` finds exactly the items. -/
theorem get_item_iff {items : Items O} (hunique : (items.map Prod.fst).Nodup) {key : String}
    {value : Value O} : get_item items key = some value ↔ (.str key, value) ∈ items := by
  unfold get_item
  induction items with
  | nil => exact iff_of_false (fun h => by cases h) List.not_mem_nil
  | cons item items ih =>
    obtain ⟨k, v⟩ := item
    obtain ⟨hfresh, hrest⟩ := List.nodup_cons.mp hunique
    rw [List.find?_cons, List.mem_cons, Prod.mk.injEq]
    by_cases hk : k = .str key
    · subst hk
      rw [is_str_iff.mpr rfl, Option.map_some, Option.some_inj]
      constructor
      · exact fun h => .inl ⟨rfl, h.symm⟩
      · rintro (⟨-, h⟩ | h)
        · exact h.symm
        · exact absurd (List.mem_map_of_mem h) hfresh
    · rw [Bool.eq_false_iff.mpr (mt is_str_iff.mp hk)]
      exact (ih hrest).trans ⟨.inr, fun h => h.resolve_left fun h => hk h.1.symm⟩

theorem parse_can_id_iff {joint : String} {items : Items O} {n : Nat} :
    parse_can_id joint items = .inr n ↔
      get_item items "can_id" = some (.atom (.int n)) ∧ MIN_CAN_ID ≤ n ∧ (n : Int) ≤ MAX_CAN_ID := by
  unfold parse_can_id
  split
  · rename_i h
    rw [h]
    exact iff_of_false (fun h => by cases h) fun h => by cases h.1
  · rename_i h
    rw [h]
    exact iff_of_false (fun h => by cases h) fun h => by cases h.1
  · rename_i i h
    rw [h]
    split
    · rename_i hrange
      have hcast : ((i.toNat : Nat) : Int) = i := by
        unfold MIN_CAN_ID at hrange
        omega
      constructor
      · rintro ⟨⟩
        rw [hcast]
        exact ⟨rfl, hrange⟩
      · rintro ⟨⟨⟩, -⟩
        rfl
    · rename_i hrange
      refine iff_of_false (fun h => by cases h) ?_
      rintro ⟨⟨⟩, hn⟩
      exact hrange hn
  · rename_i got hnone hint h
    rw [h]
    refine iff_of_false (fun h => by cases h) ?_
    rintro ⟨⟨⟩, -⟩
    exact hint _ rfl

theorem parse_direction_iff {joint : String} {items : Items O} {i : Int} :
    parse_direction joint items = .inr i ↔
      get_item items "direction" = some (.atom (.int i)) ∧ (i = 1 ∨ i = -1) := by
  unfold parse_direction
  split
  · rename_i h
    rw [h]
    exact iff_of_false (fun h => by cases h) fun h => by cases h.1
  · rename_i h
    rw [h]
    exact iff_of_false (fun h => by cases h) fun h => by cases h.1
  · rename_i j h
    rw [h]
    split
    · rename_i hone
      constructor
      · rintro ⟨⟩
        exact ⟨rfl, hone⟩
      · rintro ⟨⟨⟩, -⟩
        rfl
    · rename_i hone
      refine iff_of_false (fun h => by cases h) ?_
      rintro ⟨⟨⟩, hi⟩
      exact hone hi
  · rename_i got hnone hint h
    rw [h]
    refine iff_of_false (fun h => by cases h) ?_
    rintro ⟨⟨⟩, -⟩
    exact hint _ rfl

theorem parse_zero_on_start_iff {joint : String} {items : Items O} {b : Bool} :
    parse_zero_on_start joint items = .inr b ↔
      (get_item items "zero_on_start" = none ∧ b = false) ∨
      (get_item items "zero_on_start" = some (.atom (.bool b)) ∧ (b = true → joint ∈ GIZMO_JOINTS)) := by
  unfold parse_zero_on_start
  split
  · rename_i h
    rw [h]
    constructor
    · rintro ⟨⟩
      exact .inl ⟨rfl, rfl⟩
    · rintro (⟨-, rfl⟩ | ⟨⟨⟩, -⟩)
      rfl
  · rename_i b' h
    rw [h]
    split
    · rename_i hwheel
      refine iff_of_false (fun h => by cases h) ?_
      rintro (⟨⟨⟩, -⟩ | ⟨⟨⟩, hgizmo⟩)
      exact hwheel.2 (hgizmo hwheel.1)
    · rename_i hgizmo
      constructor
      · rintro ⟨⟩
        exact .inr ⟨rfl, fun hb => by_contra fun hjoint => hgizmo ⟨hb, hjoint⟩⟩
      · rintro (⟨⟨⟩, -⟩ | ⟨⟨⟩, -⟩)
        rfl
  · rename_i got hbool h
    rw [h]
    refine iff_of_false (fun h => by cases h) ?_
    rintro (⟨⟨⟩, -⟩ | ⟨⟨⟩, -⟩)
    exact hbool _ rfl

/-- An entry has no problem, or it has no motor. -/
theorem parse_motor_some {joint : String} {entry : Value O} (h : (parse_motor joint entry).1 = []) :
    ∃ motor items, entry = .dict items ∧ (parse_motor joint entry).2 = some motor ∧
      motor.joint = joint ∧ (∀ key ∈ items.map Prod.fst, key.one_of KEYS = true) ∧
      parse_can_id joint items = .inr motor.can_id ∧
      parse_direction joint items = .inr motor.direction ∧
      parse_zero_on_start joint items = .inr motor.zero_on_start := by
  unfold parse_motor at h ⊢
  cases entry with
  | atom a => cases h
  | list items => cases h
  | dict items =>
    dsimp only at h ⊢
    split at h
    · rename_i can_id direction zero_on_start hid hdirection hzero
      split at h
      · rename_i hkeys
        rw [if_pos hkeys]
        refine ⟨_, items, rfl, rfl, rfl, ?_, hid, hdirection, hzero⟩
        intro key hkey
        by_contra hne
        rw [List.map_eq_nil_iff, List.filter_eq_nil_iff] at hkeys
        exact hkeys key hkey (by rw [Bool.eq_false_iff.mpr hne]; rfl)
      · rename_i hkeys
        exact absurd h hkeys
    · rename_i hnone
      -- one of the three has a problem, and it is in the list
      exfalso
      simp only [List.append_eq_nil_iff, Option.toList_eq_nil_iff] at h
      obtain ⟨⟨⟨-, hid⟩, hdirection⟩, hzero⟩ := h
      obtain ⟨can_id, hid⟩ := Sum.isRight_iff.mp (Sum.getLeft?_eq_none_iff.mp hid)
      obtain ⟨direction, hdirection⟩ := Sum.isRight_iff.mp (Sum.getLeft?_eq_none_iff.mp hdirection)
      obtain ⟨zero_on_start, hzero⟩ := Sum.isRight_iff.mp (Sum.getLeft?_eq_none_iff.mp hzero)
      exact hnone _ _ _ hid hdirection hzero

theorem parse_motor_ok {joint : String} {items : Items O} {can_id : Nat} {direction : Int}
    {zero_on_start : Bool} (hkeys : ∀ key ∈ items.map Prod.fst, key.one_of KEYS = true)
    (hid : parse_can_id joint items = .inr can_id)
    (hdirection : parse_direction joint items = .inr direction)
    (hzero : parse_zero_on_start joint items = .inr zero_on_start) :
    parse_motor joint (.dict items) = ([], some ⟨joint, can_id, direction, zero_on_start⟩) := by
  have hunknown : ((items.map Prod.fst).filter fun key => !key.one_of KEYS) = [] :=
    List.filter_eq_nil_iff.mpr fun key hkey => by rw [hkeys key hkey]; exact Bool.false_ne_true
  unfold parse_motor
  dsimp only
  rw [hunknown, hid, hdirection, hzero]
  rfl

/-- An entry without a problem is valid, and its motor is the one it is about. -/
theorem valid_of_parse_motor {joint : String} {items : Items O}
    (hunique : (items.map Prod.fst).Nodup) (h : (parse_motor joint (.dict items)).1 = []) :
    ValidItems joint items ∧ ∃ motor, (parse_motor joint (.dict items)).2 = some motor ∧
      Lists (.str joint, .dict items) motor := by
  obtain ⟨motor, items', heq, hmotor, rfl, hkeys, hid, hdirection, hzero⟩ := parse_motor_some h
  injection heq with heq
  subst heq
  obtain ⟨hid, hlow, hhigh⟩ := parse_can_id_iff.mp hid
  obtain ⟨hdirection, hone⟩ := parse_direction_iff.mp hdirection
  have hid := (get_item_iff hunique).mp hid
  have hdirection := (get_item_iff hunique).mp hdirection
  have hzero := parse_zero_on_start_iff.mp hzero
  refine ⟨⟨?_, ⟨_, hid, hlow, hhigh⟩, ⟨_, hdirection, hone⟩, ?_⟩, motor, hmotor, items, rfl, hid,
    hdirection, ?_⟩
  · exact fun item hitem => one_of_iff.mp (hkeys item.1 (List.mem_map_of_mem hitem))
  · intro value hvalue
    rw [← get_item_iff hunique] at hvalue
    rcases hzero with ⟨hnone, -⟩ | ⟨hsome, hgizmo⟩
    · rw [hnone] at hvalue
      cases hvalue
    · rw [hsome] at hvalue
      cases hvalue
      exact ⟨_, rfl, hgizmo⟩
  · rw [← get_item_iff hunique]
    rcases hzero with ⟨hnone, hfalse⟩ | ⟨hsome, -⟩
    · rw [hnone, hfalse]
      exact iff_of_false Bool.false_ne_true fun h => by cases h
    · rw [hsome, Option.some_inj, Value.atom.injEq, Atom.bool.injEq]

theorem parse_motor_of_valid {joint : String} {items : Items O}
    (hunique : (items.map Prod.fst).Nodup) (h : ValidItems joint items) :
    (parse_motor joint (.dict items)).1 = [] := by
  obtain ⟨hkeys, ⟨i, hid, hlow, hhigh⟩, ⟨direction, hdirection, hone⟩, hzero⟩ := h
  obtain ⟨n, rfl⟩ := Int.eq_ofNat_of_zero_le (by omega : 0 ≤ i)
  have hid : parse_can_id joint items = .inr n :=
    parse_can_id_iff.mpr ⟨(get_item_iff hunique).mpr hid, hlow, hhigh⟩
  have hdirection : parse_direction joint items = .inr direction :=
    parse_direction_iff.mpr ⟨(get_item_iff hunique).mpr hdirection, hone⟩
  have hkeys : ∀ key ∈ items.map Prod.fst, key.one_of KEYS = true := by
    intro key hkey
    obtain ⟨item, hitem, rfl⟩ := List.mem_map.mp hkey
    exact one_of_iff.mpr (hkeys item hitem)
  have hzero : ∃ b, parse_zero_on_start joint items = .inr b := by
    cases hget : get_item items "zero_on_start" with
    | none => exact ⟨false, parse_zero_on_start_iff.mpr (.inl ⟨hget, rfl⟩)⟩
    | some value =>
      obtain ⟨b, rfl, hgizmo⟩ := hzero value ((get_item_iff hunique).mp hget)
      exact ⟨b, parse_zero_on_start_iff.mpr (.inr ⟨hget, hgizmo⟩)⟩
  obtain ⟨b, hzero⟩ := hzero
  rw [parse_motor_ok hkeys hid hdirection hzero]

/-- The dictionaries among the values of the items have unique keys. -/
def UniqueEntries (entries : Items O) : Prop :=
  ∀ item ∈ entries, ∀ items, item.2 = .dict items → (items.map Prod.fst).Nodup

theorem parse_motors_cons (key : Atom O) (entry : Value O) (rest : Items O) :
    (∃ joint ∈ JOINTS, key = .str joint ∧ parse_motors ((key, entry) :: rest) =
      ((parse_motor joint entry).1 ++ (parse_motors rest).1,
        (parse_motor joint entry).2.toList ++ (parse_motors rest).2)) ∨
    ((∀ joint ∈ JOINTS, key ≠ .str joint) ∧ (parse_motors ((key, entry) :: rest)).1 ≠ []) := by
  cases key with
  | str joint =>
    by_cases hjoint : joint ∈ JOINTS
    · refine .inl ⟨joint, hjoint, rfl, ?_⟩
      rw [parse_motors]
      exact if_pos hjoint
    · refine .inr ⟨?_, ?_⟩
      · rintro joint' hjoint' ⟨⟩
        exact hjoint hjoint'
      · rw [parse_motors]
        dsimp only
        rw [if_neg hjoint]
        exact List.cons_ne_nil _ _
  | none_ => exact .inr ⟨fun _ _ h => by (cases h), List.cons_ne_nil _ _⟩
  | bool b => exact .inr ⟨fun _ _ h => by (cases h), List.cons_ne_nil _ _⟩
  | int i => exact .inr ⟨fun _ _ h => by (cases h), List.cons_ne_nil _ _⟩
  | other o => exact .inr ⟨fun _ _ h => by (cases h), List.cons_ne_nil _ _⟩

/-- The pass over the joints has nothing to report exactly if every entry is valid, and then
its motors are those of the entries. -/
theorem parse_motors_iff {entries : Items O} (hunique : UniqueEntries entries) :
    ((parse_motors entries).1 = [] ↔ ∀ item ∈ entries, ValidEntry item) ∧
    ((parse_motors entries).1 = [] → List.Forall₂ Lists entries (parse_motors entries).2) := by
  induction entries with
  | nil => exact ⟨iff_of_true rfl fun _ h => absurd h List.not_mem_nil, fun _ => .nil⟩
  | cons item rest ih =>
    obtain ⟨key, entry⟩ := item
    obtain ⟨hiff, hmotors⟩ := ih fun item hitem => hunique item (List.mem_cons_of_mem _ hitem)
    rcases parse_motors_cons key entry rest with ⟨joint, hjoint, rfl, heq⟩ | ⟨hunknown, hne⟩
    · have hfirst : (parse_motor joint entry).1 = [] ↔ ValidEntry (.str joint, entry) := by
        constructor
        · intro h
          obtain ⟨_, items, rfl, -⟩ := parse_motor_some h
          have hitems := hunique _ List.mem_cons_self items rfl
          exact ⟨joint, hjoint, items, rfl, (valid_of_parse_motor hitems h).1⟩
        · rintro ⟨joint', _, items, ⟨⟩, hvalid⟩
          exact parse_motor_of_valid (hunique _ List.mem_cons_self items rfl) hvalid
      rw [heq, List.append_eq_nil_iff, List.forall_mem_cons, hfirst, hiff]
      refine ⟨Iff.rfl, fun ⟨hvalid, hrest⟩ => ?_⟩
      have hentry := hvalid
      obtain ⟨_, _, items, ⟨⟩, -⟩ := hentry
      obtain ⟨-, motor, hmotor, hlists⟩ := valid_of_parse_motor
        (hunique _ List.mem_cons_self items rfl) (hfirst.mpr hvalid)
      rw [hmotor]
      exact .cons hlists (hmotors (hiff.mpr hrest))
    · refine ⟨iff_of_false hne fun h => ?_, fun h => absurd h hne⟩
      obtain ⟨joint, hjoint, items, ⟨⟩, -⟩ := h _ List.mem_cons_self
      exact hunknown joint hjoint rfl

theorem repeated_ids_iff {O : Type} (motors : List Motor) (by_id : Dict Nat String) :
    (repeated_ids motors by_id : List (Problem O)) = [] ↔
      (motors.map Motor.can_id).Nodup ∧ ∀ motor ∈ motors, motor.can_id ∉ by_id.keys := by
  induction motors generalizing by_id with
  | nil => exact iff_of_true rfl ⟨List.nodup_nil, fun _ h => absurd h List.not_mem_nil⟩
  | cons motor rest ih =>
    rw [List.map_cons, List.nodup_cons, List.forall_mem_cons]
    unfold repeated_ids
    by_cases hknown : motor.can_id ∈ by_id.keys
    · refine iff_of_false ?_ fun h => h.2.1 hknown
      have hget : by_id.get motor.can_id ≠ none := by
        intro hnone
        obtain ⟨item, hitem, heq⟩ := List.mem_map.mp hknown
        have hdiff := List.lookup_eq_none_iff.mp hnone item hitem
        rw [heq, bne_self_eq_false] at hdiff
        cases hdiff
      obtain ⟨first, hfirst⟩ := Option.ne_none_iff_exists'.mp hget
      rw [hfirst]
      exact List.cons_ne_nil _ _
    · have hget : by_id.get motor.can_id = none := lookup_none hknown
      rw [hget]
      dsimp only
      rw [ih]
      simp only [Dict.mem_keys_set, not_or, List.mem_map, not_exists, not_and]
      constructor
      · rintro ⟨hnodup, hfresh⟩
        exact ⟨⟨fun m hm heq => (hfresh m hm).1 heq, hnodup⟩, hknown, fun m hm => (hfresh m hm).2⟩
      · rintro ⟨⟨hfirst, hnodup⟩, -, hfresh⟩
        exact ⟨hnodup, fun m hm => ⟨fun heq => hfirst m hm heq, hfresh m hm⟩⟩

/-- The CAN ID of an entry is the one of its motor. -/
theorem Lists.hasId_iff {item : Atom O × Value O} {motor : Motor} (h : Lists item motor)
    (hunique : ∀ items, item.2 = .dict items → (items.map Prod.fst).Nodup) {i : Int} :
    HasId item.2 i ↔ i = motor.can_id := by
  obtain ⟨items, rfl, hid, -, -⟩ := h
  have hitems := hunique items rfl
  constructor
  · rintro ⟨_, ⟨⟩, hi⟩
    rw [← get_item_iff hitems] at hi hid
    rw [hi] at hid
    cases hid
    rfl
  · rintro rfl
    exact ⟨items, rfl, hid⟩

theorem fresh_iff {entries : Items O} {motors : List Motor} (h : List.Forall₂ Lists entries motors)
    (hunique : UniqueEntries entries) {n : Nat} :
    (∀ item ∈ entries, ¬ HasId item.2 n) ↔ n ∉ motors.map Motor.can_id := by
  induction h with
  | nil => exact iff_of_true (fun _ h => absurd h List.not_mem_nil) List.not_mem_nil
  | @cons item motor entries motors hfirst hrest ih =>
    rw [List.forall_mem_cons, ih fun i hi => hunique i (List.mem_cons_of_mem _ hi),
      hfirst.hasId_iff (hunique item List.mem_cons_self), List.map_cons, List.mem_cons, not_or,
      Int.natCast_inj]

theorem distinct_iff {entries : Items O} {motors : List Motor} (h : List.Forall₂ Lists entries motors)
    (hunique : UniqueEntries entries) :
    (entries.Pairwise fun a b => ∀ i, HasId a.2 i → ¬ HasId b.2 i) ↔
      (motors.map Motor.can_id).Nodup := by
  induction h with
  | nil => exact iff_of_true .nil List.nodup_nil
  | @cons item motor entries motors hfirst hrest ih =>
    have hunique' : UniqueEntries entries := fun i hi => hunique i (List.mem_cons_of_mem _ hi)
    rw [List.pairwise_cons, List.map_cons, List.nodup_cons, ih hunique', ← fresh_iff hrest hunique']
    simp only [hfirst.hasId_iff (hunique item List.mem_cons_self), forall_eq]

theorem check_items_iff (require_gizmo : Bool) (data entries : Items O) :
    (check_items require_gizmo data entries).1 = [] ↔
      (∀ item ∈ data, item.1 = .str "motors") ∧ (parse_motors entries).1 = [] ∧
      (∀ joint ∈ required require_gizmo, ∃ entry, (.str joint, entry) ∈ entries) ∧
      (repeated_ids (parse_motors entries).2 [] : List (Problem O)) = [] := by
  have hunknown : ((data.map Prod.fst).filter fun key => !key.is_str "motors") = [] ↔
      ∀ item ∈ data, item.1 = .str "motors" := by
    simp only [List.filter_eq_nil_iff, List.forall_mem_map, Bool.not_eq_true', Bool.not_eq_false,
      is_str_iff]
  have hlisted (joint : String) : (!(entries.map Prod.fst).any (·.is_str joint)) = true ↔
      ¬ ∃ entry, (.str joint, entry) ∈ entries := by
    rw [Bool.not_eq_true', ← Bool.not_eq_true, List.any_eq_true]
    refine not_congr ⟨?_, ?_⟩
    · rintro ⟨key, hkey, hstr⟩
      obtain ⟨⟨_, entry⟩, hitem, rfl⟩ := List.mem_map.mp hkey
      exact ⟨entry, is_str_iff.mp hstr ▸ hitem⟩
    · rintro ⟨entry, hitem⟩
      exact ⟨_, List.mem_map_of_mem hitem, is_str_iff.mpr rfl⟩
  unfold check_items
  dsimp only
  rw [List.append_eq_nil_iff, List.append_eq_nil_iff, List.append_eq_nil_iff, List.map_eq_nil_iff,
    List.map_eq_nil_iff, hunknown, List.filter_eq_nil_iff, and_assoc, and_assoc]
  simp only [hlisted, not_not]
  rfl

theorem motor_items_iff {value : Value O} {data entries : Items O} :
    motor_items value = some (data, entries) ↔
      value = .dict data ∧ get_item data "motors" = some (.dict entries) := by
  unfold motor_items
  cases value with
  | atom a => exact iff_of_false (fun h => by cases h) fun h => by cases h.1
  | list items => exact iff_of_false (fun h => by cases h) fun h => by cases h.1
  | dict data' =>
    dsimp only
    split
    · rename_i entries' hget
      constructor
      · rintro ⟨⟩
        exact ⟨rfl, hget⟩
      · rintro ⟨⟨⟩, h⟩
        rw [hget] at h
        cases h
        rfl
    · rename_i hget
      refine iff_of_false (fun h => by cases h) ?_
      rintro ⟨⟨⟩, h⟩
      exact hget entries h

/-- An entry is about one motor. -/
theorem Lists.unique {item : Atom O × Value O} {motor motor' : Motor} (h : Lists item motor)
    (h' : Lists item motor') (hunique : ∀ items, item.2 = .dict items → (items.map Prod.fst).Nodup) :
    motor = motor' := by
  obtain ⟨items, rfl, hid, hdirection, hzero⟩ := h
  obtain ⟨_, heq, hid', hdirection', hzero'⟩ := h'
  obtain ⟨hjoint, ⟨⟩⟩ := Prod.mk.inj heq
  have hitems := hunique items rfl
  rw [← get_item_iff hitems] at hid hid' hdirection hdirection'
  rw [hid] at hid'
  rw [hdirection] at hdirection'
  obtain ⟨joint, can_id, direction, zero_on_start⟩ := motor
  obtain ⟨joint', can_id', direction', zero_on_start'⟩ := motor'
  cases hjoint
  cases hid'
  cases hdirection'
  rw [Motor.mk.injEq]
  exact ⟨rfl, rfl, rfl, Bool.eq_iff_iff.mpr (hzero.trans hzero'.symm)⟩

theorem Lists.unique_forall {entries : Items O} {motors motors' : List Motor}
    (h : List.Forall₂ Lists entries motors) (h' : List.Forall₂ Lists entries motors')
    (hunique : UniqueEntries entries) : motors = motors' := by
  induction h generalizing motors' with
  | nil => cases h' with | nil => rfl
  | @cons item motor entries motors hfirst hrest ih =>
    cases h' with
    | cons hfirst' hrest' =>
      rw [hfirst.unique hfirst' (hunique item List.mem_cons_self),
        ih hrest' fun i hi => hunique i (List.mem_cons_of_mem _ hi)]

theorem Lists.keys {entries : Items O} {motors : List Motor} (h : List.Forall₂ Lists entries motors) :
    entries.map Prod.fst = motors.map fun motor => .str motor.joint := by
  induction h with
  | nil => rfl
  | cons hfirst _ ih =>
    obtain ⟨items, rfl, -⟩ := hfirst
    rw [List.map_cons, List.map_cons, ih]

variable {K : Type} (py : PyYaml O)

theorem validate_ok_iff {path : String} {require_gizmo : Bool} {value : Value O}
    {config : MotorConfig} :
    (validate py path require_gizmo value : Except (Exception K) MotorConfig) = .ok config ↔
      ∃ data entries, motor_items value = some (data, entries) ∧
        (check_items require_gizmo data entries).1 = [] ∧
        config = ⟨path, (check_items require_gizmo data entries).2⟩ := by
  unfold validate
  cases motor_items value with
  | none => exact iff_of_false (fun h => by cases h) fun ⟨_, _, h, _⟩ => by cases h
  | some items =>
    obtain ⟨data, entries⟩ := items
    unfold conclude
    dsimp only
    by_cases hnone : (check_items require_gizmo data entries).1 = []
    · rw [hnone, List.isEmpty_nil, if_pos rfl]
      constructor
      · rintro ⟨⟩
        exact ⟨data, entries, rfl, hnone, rfl⟩
      · rintro ⟨_, _, ⟨⟩, -, rfl⟩
        rfl
    · rw [if_neg (mt List.isEmpty_iff.mp hnone)]
      refine iff_of_false (fun h => ?_) ?_
      · split at h <;> cases h
      · rintro ⟨_, _, ⟨⟩, h, -⟩
        exact hnone h

/-- What the dictionaries of a file with a `motors` mapping have of unique keys. -/
theorem UniqueKeys.entries {data entries : Items O} (h : UniqueKeys (.dict data))
    (hmotors : (.str "motors", .dict entries) ∈ data) :
    (data.map Prod.fst).Nodup ∧ (entries.map Prod.fst).Nodup ∧ UniqueEntries entries := by
  refine ⟨h _ (.here _), h _ (.there hmotors (.here _)), ?_⟩
  rintro ⟨key, _⟩ hitem items rfl
  exact h _ (.there hmotors (.there hitem (.here _)))

/-- A list of items with unique keys that are all the same is a single item. -/
theorem eq_singleton_of_keys {data : Items O} {key : Atom O} {value : Value O}
    (hunique : (data.map Prod.fst).Nodup) (hkeys : ∀ item ∈ data, item.1 = key)
    (hmem : (key, value) ∈ data) : data = [(key, value)] := by
  match data with
  | [] => cases hmem
  | [item] => rw [List.mem_singleton.mp hmem]
  | first :: second :: rest =>
    refine absurd ?_ (List.nodup_cons.mp hunique).1
    rw [hkeys first List.mem_cons_self, ← hkeys second (by simp)]
    exact List.mem_cons_self

/-- A configuration is returned exactly for a valid file, and lists its motors in order. -/
theorem validate_ok_iff_valid {path : String} {require_gizmo : Bool} {value : Value O}
    (hunique : UniqueKeys value) (config : MotorConfig) :
    (validate py path require_gizmo value : Except (Exception K) MotorConfig) = .ok config ↔
      ∃ entries, value = .dict [(.str "motors", .dict entries)] ∧
        ValidEntries require_gizmo entries ∧ config.path = path ∧
        List.Forall₂ Lists entries config.motors := by
  rw [validate_ok_iff]
  constructor
  · rintro ⟨data, entries, hitems, hcheck, rfl⟩
    obtain ⟨rfl, hget⟩ := motor_items_iff.mp hitems
    have hmotors := (get_item_iff (hunique _ (.here _))).mp hget
    obtain ⟨hdata, -, hentries⟩ := hunique.entries hmotors
    obtain ⟨hkeys, hproblems, hlisted, hrepeated⟩ := (check_items_iff _ _ _).mp hcheck
    obtain ⟨hvalid, hlists⟩ := parse_motors_iff hentries
    refine ⟨entries, ?_, ⟨hvalid.mp hproblems, hlisted, ?_⟩, rfl, hlists hproblems⟩
    · rw [eq_singleton_of_keys hdata hkeys hmotors]
    · exact (distinct_iff (hlists hproblems) hentries).mpr ((repeated_ids_iff _ _).mp hrepeated).1
  · rintro ⟨entries, rfl, ⟨hvalid, hlisted, hdistinct⟩, rfl, hmotors⟩
    obtain ⟨-, -, hentries⟩ := hunique.entries List.mem_cons_self
    obtain ⟨hiff, hlists⟩ := parse_motors_iff hentries
    have hproblems := hiff.mpr hvalid
    have hsame := Lists.unique_forall hmotors (hlists hproblems) hentries
    refine ⟨_, entries, motor_items_iff.mpr ⟨rfl, ?_⟩, (check_items_iff _ _ _).mpr
      ⟨?_, hproblems, hlisted, ?_⟩, ?_⟩
    · exact (get_item_iff (hunique _ (.here _))).mpr List.mem_cons_self
    · exact fun item hitem => by rw [List.mem_singleton.mp hitem]
    · exact (repeated_ids_iff _ _).mpr
        ⟨(distinct_iff (hlists hproblems) hentries).mp hdistinct, fun _ _ => List.not_mem_nil⟩
    · show config = ⟨config.path, (parse_motors entries).2⟩
      rw [← hsame]

/-- What a configuration promises to those who use it. -/
structure Consistent (config : MotorConfig) : Prop where
  joints : (config.motors.map Motor.joint).Nodup
  ids : (config.motors.map Motor.can_id).Nodup

namespace Consistent
variable {config : MotorConfig} (h : Consistent config)
include h

theorem get_iff {joint : String} {motor : Motor} :
    config.get joint = some motor ↔ motor ∈ config.motors ∧ motor.joint = joint := by
  unfold MotorConfig.get
  constructor
  · intro hfind
    exact ⟨List.mem_of_find?_eq_some hfind, by simpa using List.find?_some hfind⟩
  · rintro ⟨hmem, rfl⟩
    cases hfind : config.motors.find? fun m => m.joint = motor.joint with
    | none => exact absurd (List.find?_eq_none.mp hfind motor hmem) (by simp)
    | some first =>
      have hjoint : first.joint = motor.joint := by simpa using List.find?_some hfind
      rw [List.inj_on_of_nodup_map h.joints (List.mem_of_find?_eq_some hfind) hmem hjoint]

/-- `joint_of` is the inverse of `get`. -/
theorem joint_of_iff {can_id : Nat} {joint : String} :
    config.joint_of can_id = some joint ↔
      ∃ motor, config.get joint = some motor ∧ motor.can_id = can_id := by
  have hkeys : ((config.motors.map fun motor => (motor.can_id, motor.joint)).map Prod.fst).Nodup := by
    rw [List.map_map]
    exact h.ids
  have hnames : config.names = config.motors.map fun motor => (motor.can_id, motor.joint) :=
    Dict.foldl_set_fresh _ (d := []) hkeys
  unfold MotorConfig.joint_of Dict.get
  rw [hnames, lookup_iff_mem hkeys, List.mem_map]
  simp only [h.get_iff, Prod.mk.injEq]
  constructor
  · rintro ⟨motor, hmem, hid, hjoint⟩
    exact ⟨motor, ⟨hmem, hjoint⟩, hid⟩
  · rintro ⟨motor, ⟨hmem, hjoint⟩, hid⟩
    exact ⟨motor, hmem, hid, hjoint⟩

/-- Looking up joints that are all listed. -/
theorem map_get {joints : List String}
    (hlisted : ∀ joint ∈ joints, joint ∈ config.motors.map Motor.joint) :
    ∃ motors : List Motor, joints.map config.get = motors.map some ∧
      joints.filterMap config.get = motors ∧ motors ⊆ config.motors ∧
      motors.map Motor.joint = joints := by
  induction joints with
  | nil => exact ⟨[], rfl, rfl, List.nil_subset _, rfl⟩
  | cons joint joints ih =>
    obtain ⟨motors, hmap, hfilter, hsubset, hjoints⟩ :=
      ih fun j hj => hlisted j (List.mem_cons_of_mem _ hj)
    obtain ⟨motor, hmem, rfl⟩ := List.mem_map.mp (hlisted joint List.mem_cons_self)
    have hget := h.get_iff.mpr ⟨hmem, rfl⟩
    refine ⟨motor :: motors, ?_, ?_, List.cons_subset.mpr ⟨hmem, hsubset⟩, ?_⟩
    · rw [List.map_cons, hget, hmap, List.map_cons]
    · rw [List.filterMap_cons_some hget, hfilter]
    · rw [List.map_cons, hjoints]

/-- Motors of distinct joints have distinct CAN IDs. -/
theorem distinct_ids {motors : List Motor} (hsubset : motors ⊆ config.motors)
    (hjoints : (motors.map Motor.joint).Nodup) : (motors.map Motor.can_id).Nodup :=
  List.Nodup.map_on
    (fun _ hx _ hy heq => List.inj_on_of_nodup_map h.ids (hsubset hx) (hsubset hy) heq)
    (List.Nodup.of_map _ hjoints)

end Consistent

/-- The joints that are driven. -/
def driven (gizmo_mode : String) : List String := if gizmo_mode = "can" then JOINTS else WHEEL_JOINTS

/-- The motors in use are those of the joints that are driven, with distinct CAN IDs. -/
theorem Consistent.in_use {config : MotorConfig} (h : Consistent config) {gizmo_mode : String}
    (hlisted : ∀ joint ∈ driven gizmo_mode, joint ∈ config.motors.map Motor.joint) :
    ∃ motors : List Motor,
      (config.in_use gizmo_mode : Except (Exception K) _) = .ok (motors.map some) ∧
      motors ⊆ config.motors ∧ motors.map Motor.joint = driven gizmo_mode ∧
      (motors.map Motor.can_id).Nodup := by
  unfold MotorConfig.in_use MotorConfig.wheels MotorConfig.gizmo
  unfold driven at hlisted ⊢
  by_cases hmode : gizmo_mode = "can"
  · rw [if_neg (not_not.mpr hmode)]
    rw [if_pos hmode] at hlisted ⊢
    obtain ⟨wheels, hwheels, -, hwheels', hwheel_joints⟩ :=
      h.map_get fun joint hj => hlisted joint (List.mem_append_left _ hj)
    obtain ⟨gizmo, hall, hgizmo, hgizmo', hgizmo_joints⟩ :=
      h.map_get fun joint hj => hlisted joint (List.mem_append_right _ hj)
    have hmissing : (GIZMO_JOINTS.filter fun joint => config.get joint = none) = [] := by
      rw [List.filter_eq_nil_iff]
      intro joint hj hnone
      have hmem := List.mem_map_of_mem (f := config.get) hj
      rw [hall] at hmem
      obtain ⟨motor, -, hsome⟩ := List.mem_map.mp hmem
      rw [← hsome] at hnone
      simp at hnone
    have hsubset : wheels ++ gizmo ⊆ config.motors := List.append_subset.mpr ⟨hwheels', hgizmo'⟩
    have hjoints : (wheels ++ gizmo).map Motor.joint = JOINTS := by
      rw [List.map_append, hwheel_joints, hgizmo_joints]
      rfl
    refine ⟨wheels ++ gizmo, ?_, hsubset, hjoints, h.distinct_ids hsubset ?_⟩
    · dsimp only
      rw [hmissing, if_neg (not_not.mpr rfl), hwheels, hgizmo, List.map_append]
    · rw [hjoints]
      decide
  · rw [if_pos hmode]
    rw [if_neg hmode] at hlisted ⊢
    obtain ⟨wheels, hwheels, -, hsubset, hjoints⟩ := h.map_get hlisted
    refine ⟨wheels, by rw [hwheels], hsubset, hjoints, h.distinct_ids hsubset ?_⟩
    rw [hjoints]
    decide

/-- The motors of a valid file have distinct joints and CAN IDs, and every required joint has
one. -/
theorem ValidEntries.consistent {require_gizmo : Bool} {entries : Items O} {config : MotorConfig}
    (h : ValidEntries require_gizmo entries) (hlists : List.Forall₂ Lists entries config.motors)
    (hunique : (entries.map Prod.fst).Nodup) (hentries : UniqueEntries entries) :
    Consistent config ∧ ∀ joint ∈ required require_gizmo, joint ∈ config.motors.map Motor.joint := by
  have hkeys := Lists.keys hlists
  have hjoints : (config.motors.map Motor.joint).Nodup := by
    rw [hkeys] at hunique
    apply List.Nodup.of_map Atom.str
    rw [List.map_map]
    exact hunique
  refine ⟨⟨hjoints, (distinct_iff hlists hentries).mp h.distinct⟩, fun joint hjoint => ?_⟩
  obtain ⟨entry, hentry⟩ := h.listed joint hjoint
  have hmem := List.mem_map_of_mem (f := Prod.fst) hentry
  rw [hkeys] at hmem
  obtain ⟨motor, hmotor, heq⟩ := List.mem_map.mp hmem
  cases heq
  exact List.mem_map_of_mem hmotor

/-- `parse` of a text whose value has unique keys: it returns a configuration exactly if the
value is valid, and what the configuration then says. -/
theorem parse_accepts_valid (text path : String) (require_gizmo : Bool) {value : Value O}
    (hload : load_yaml py text = .ok value) (hunique : UniqueKeys value) :
    ((∃ config, (parse py text path require_gizmo : Except (Exception K) MotorConfig) = .ok config) ↔
      Valid require_gizmo value) ∧
    ∀ config, (parse py text path require_gizmo : Except (Exception K) MotorConfig) = .ok config →
      config.path = path ∧
      (∃ entries, value = .dict [(.str "motors", .dict entries)] ∧
        List.Forall₂ Lists entries config.motors) ∧
      (∀ joint can_id, config.joint_of can_id = some joint ↔
        ∃ motor, config.get joint = some motor ∧ motor.can_id = can_id) ∧
      (∀ motor ∈ config.motors, config.get motor.joint = some motor ∧
        config.joint_of motor.can_id = some motor.joint) ∧
      ∀ gizmo_mode, (gizmo_mode = "can" → require_gizmo = true) → ∃ motors : List Motor,
        (config.in_use gizmo_mode : Except (Exception K) _) = .ok (motors.map some) ∧
        motors ⊆ config.motors ∧ motors.map Motor.joint = driven gizmo_mode ∧
        (motors.map Motor.can_id).Nodup := by
  have hparse : (parse py text path require_gizmo : Except (Exception K) MotorConfig) =
      validate py path require_gizmo value := by
    unfold parse
    rw [hload]
    rfl
  rw [hparse]
  constructor
  · constructor
    · rintro ⟨config, hconfig⟩
      obtain ⟨entries, hvalue, hvalid, -, -⟩ := (validate_ok_iff_valid py hunique config).mp hconfig
      exact ⟨entries, hvalue, hvalid⟩
    · rintro ⟨entries, rfl, hvalid⟩
      obtain ⟨-, -, hentries⟩ := hunique.entries List.mem_cons_self
      obtain ⟨hiff, hlists⟩ := parse_motors_iff hentries
      exact ⟨⟨path, (parse_motors entries).2⟩, (validate_ok_iff_valid py hunique _).mpr
        ⟨entries, rfl, hvalid, rfl, hlists (hiff.mpr hvalid.entry)⟩⟩
  · intro config hconfig
    obtain ⟨entries, rfl, hvalid, hpath, hlists⟩ :=
      (validate_ok_iff_valid py hunique config).mp hconfig
    obtain ⟨-, hkeys, hentries⟩ := hunique.entries List.mem_cons_self
    obtain ⟨hconsistent, hlisted⟩ := hvalid.consistent hlists hkeys hentries
    refine ⟨hpath, ⟨entries, rfl, hlists⟩, fun _ _ => hconsistent.joint_of_iff, ?_, ?_⟩
    · intro motor hmotor
      have hget := hconsistent.get_iff.mpr ⟨hmotor, rfl⟩
      exact ⟨hget, hconsistent.joint_of_iff.mpr ⟨motor, hget, rfl⟩⟩
    · intro gizmo_mode hmode
      apply hconsistent.in_use
      intro joint hjoint
      apply hlisted
      unfold driven at hjoint
      unfold required
      split at hjoint
      · rw [if_pos (hmode ‹_›)]
        exact hjoint
      · split
        · exact List.mem_append_left _ hjoint
        · exact hjoint

end Valid

section Examples

def wheels_text : String :=
  "motors:\n  wheel_joint_left: {can_id: 1, direction: 1}\n" ++
  "  wheel_joint_right: {can_id: 2, direction: -1}\n"

def wheel_node (can_id direction : String) : Node :=
  .mapping "" [(.scalar "" "str" "can_id", .scalar "" "int" can_id),
    (.scalar "" "str" "direction", .scalar "" "int" direction)]

/-- PyYAML as far as the text needs it. -/
def wheels_yaml : PyYaml Unit where
  compose text :=
    if text = wheels_text then
      .ok (some (.mapping "" [(.scalar "" "str" "motors", .mapping ""
        [(.scalar "" "str" "wheel_joint_left", wheel_node "1" "1"),
          (.scalar "" "str" "wheel_joint_right", wheel_node "2" "-1")])]))
    else .error (.yaml_error "")
  scalar tag value := .ok (
    if tag = "int" then .int (if value = "-1" then -1 else if value = "2" then 2 else 1)
    else .str value)
  same a b := a == b
  text _ := some ""
  repr _ := some ""

def wheel_items (can_id direction : Int) : Items Unit :=
  [(.str "can_id", .atom (.int can_id)), (.str "direction", .atom (.int direction))]

def wheels_value : Value Unit :=
  .dict [(.str "motors", .dict [(.str "wheel_joint_left", .dict (wheel_items 1 1)),
    (.str "wheel_joint_right", .dict (wheel_items 2 (-1)))])]

theorem wheels_unique : UniqueKeys wheels_value := by
  have hwheel (can_id direction : Int) : UniqueKeys (.dict (wheel_items can_id direction)) := by
    apply uniqueKeys_dict
    · show [Atom.str "can_id", Atom.str "direction"].Nodup
      decide
    · intro item hitem
      rcases List.mem_pair.mp hitem with rfl | rfl
      · exact uniqueKeys_atom _
      · exact uniqueKeys_atom _
  apply uniqueKeys_dict
  · decide
  · intro item hitem
    rw [List.mem_singleton.mp hitem]
    apply uniqueKeys_dict
    · show [Atom.str "wheel_joint_left", Atom.str "wheel_joint_right"].Nodup
      decide
    · intro item hitem
      rcases List.mem_pair.mp hitem with rfl | rfl
      · exact hwheel 1 1
      · exact hwheel 2 (-1)

/-- The file is accepted if the gizmo is not required. -/
theorem wheels_accepted :
    ((∃ config, (parse wheels_yaml wheels_text "test.yaml" false : Except (Exception ℚ) _) =
      .ok config) ↔ Valid false wheels_value) ∧
    (∃ motors : List Motor, (MotorConfig.in_use (K := ℚ) ⟨"test.yaml",
        [⟨"wheel_joint_left", 1, 1, false⟩, ⟨"wheel_joint_right", 2, -1, false⟩]⟩ "fixed") =
      .ok (motors.map some) ∧ (motors.map Motor.can_id).Nodup) := by
  have hload : load_yaml wheels_yaml wheels_text = .ok wheels_value := rfl
  have h := parse_accepts_valid (K := ℚ) wheels_yaml wheels_text "test.yaml" false hload
    wheels_unique
  refine ⟨h.1, ?_⟩
  obtain ⟨-, -, -, -, hin_use⟩ := h.2 ⟨"test.yaml",
    [⟨"wheel_joint_left", 1, 1, false⟩, ⟨"wheel_joint_right", 2, -1, false⟩]⟩ (by decide +kernel)
  obtain ⟨motors, hmotors, -, -, hnodup⟩ := hin_use "fixed" (by decide)
  exact ⟨motors, hmotors, hnodup⟩

end Examples

end IotRobot.Tool
