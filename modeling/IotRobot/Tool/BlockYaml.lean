import IotRobot.Tool.Accepted
import IotRobot.Tool.Layout

/-!
# What a file in block style says

The document that PyYAML composes from a text in block style, and what `parse` makes of it
before and after the CAN IDs of some joints are replaced.
-/

namespace IotRobot.Tool

open Lib Can

set_option autoImplicit false

def JointBlock.key_lines (block : JointBlock) : List KeyLine := block.body.filterMap Sum.getRight?

section Document
variable {O : Type} (py : PyYaml O) (resolve : String → String)

def Token.string (token : Token) : String := String.ofList token.val

/-- The node of a plain scalar: PyYAML resolves its tag from the text. -/
def IsScalar (text : String) (node : Node) : Prop := ∃ mark, node = .scalar mark (resolve text) text

def IsEntry (block : JointBlock) (node : Node) : Prop :=
  ∃ mark pairs, node = .mapping mark pairs ∧ List.Forall₂ (fun line pair =>
    IsScalar resolve line.key pair.1 ∧ IsScalar resolve (Token.string line.value) pair.2)
    block.key_lines pairs

/-- The nodes follow the blocks of the text. -/
def IsBlock (layout : Layout) (root : Node) : Prop :=
  ∃ mark key mark' pairs, root = .mapping mark [(key, .mapping mark' pairs)] ∧
    IsScalar resolve "motors" key ∧ List.Forall₂ (fun block pair =>
      IsScalar resolve block.joint pair.1 ∧ IsEntry resolve block pair.2) layout.blocks pairs

/-- PyYAML composes the text of a layout as its blocks. -/
def Composes (layout : Layout) (final : Bool) : Prop :=
  ∃ root, py.compose (String.ofList (layout.text final)) = .ok (some root) ∧
    IsBlock resolve layout root

/-- Names are read as strings and decimal numbers as integers; strings are equal as such. -/
structure ReadsScalars : Prop where
  name : ∀ name ∈ "motors" :: (JOINTS ++ KEYS), py.scalar (resolve name) name = .ok (.str name)
  number : ∀ i text, str_int i = some text →
    py.scalar (resolve (String.ofList text)) (String.ofList text) = .ok (.int i)
  same : ∀ a b, py.same (.str a) (.str b) = (a == b)

/-- The value of a plain scalar. -/
def plain_atom (text : String) : Atom O :=
  match py.scalar (resolve text) text with
  | .ok a => a
  | .error _ => .none_

def key_item (line : KeyLine) : Atom O × Value O :=
  (.str line.key, .atom (plain_atom py resolve (Token.string line.value)))

def block_item (block : JointBlock) : Atom O × Value O :=
  (.str block.joint, .dict (block.key_lines.map (key_item py resolve)))

/-- The value of a text in block style. -/
def layout_value (layout : Layout) : Value O :=
  .dict [(.str "motors", .dict (layout.blocks.map (block_item py resolve)))]

/-- The loader has nothing to object to in a joint's entry. -/
structure CleanEntry (block : JointBlock) : Prop where
  keys : (block.key_lines.map KeyLine.key).Nodup
  values : ∀ line ∈ block.key_lines, ∃ a,
    py.scalar (resolve (Token.string line.value)) (Token.string line.value) = .ok a

/-- ... and nowhere else. -/
structure Clean (layout : Layout) : Prop where
  joints : (layout.blocks.map JointBlock.joint).Nodup
  entries : ∀ block ∈ layout.blocks, CleanEntry py resolve block

variable {py resolve} {names : List String} {pairs : List (Node × Node)}

theorem keys_read (hreads : ReadsScalars py resolve)
    (h : List.Forall₂ (fun name pair => IsScalar resolve name pair.1) names pairs)
    (hnames : ∀ name ∈ names, name ∈ "motors" :: (JOINTS ++ KEYS)) :
    key_values py pairs = names.map Atom.str ∧ ∀ seen : List String,
      key_objections py pairs (seen.map Atom.str) = [] ↔
        names.Nodup ∧ ∀ name ∈ names, name ∉ seen := by
  induction h with
  | nil => exact ⟨by simp only [key_values, List.map_nil], fun seen =>
      iff_of_true (by simp only [key_objections]) ⟨List.nodup_nil, fun _ h => absurd h List.not_mem_nil⟩⟩
  | @cons name pair names pairs hfirst hrest ih =>
    obtain ⟨node, value⟩ := pair
    obtain ⟨mark, rfl⟩ := hfirst
    have hname := hreads.name name (hnames name List.mem_cons_self)
    obtain ⟨hvalues, hobjections⟩ := ih fun n hn => hnames n (List.mem_cons_of_mem _ hn)
    constructor
    · simp only [key_values, node_value, hname, hvalues, List.map_cons]
    · intro seen
      have hseen : (seen.map Atom.str).any (py.same (.str name)) = true ↔ name ∈ seen := by
        rw [List.any_map, List.any_eq_true]
        simp only [Function.comp_apply, hreads.same, beq_iff_eq, exists_eq_right']
      simp only [key_objections, hname]
      rw [List.nodup_cons, List.forall_mem_cons]
      by_cases hdup : name ∈ seen
      · rw [if_pos (hseen.mpr hdup)]
        exact iff_of_false (List.cons_ne_nil _ _) fun h => h.2.1 hdup
      · rw [if_neg (mt hseen.mp hdup)]
        have hnext := hobjections (seen ++ [name])
        rw [List.map_append, List.map_singleton] at hnext
        rw [hnext]
        simp only [List.mem_append, List.mem_singleton, not_or]
        constructor
        · rintro ⟨hnodup, hfresh⟩
          exact ⟨⟨fun hmem => (hfresh name hmem).2 rfl, hnodup⟩, hdup, fun n hn => (hfresh n hn).1⟩
        · rintro ⟨⟨hfirst, hnodup⟩, -, hfresh⟩
          exact ⟨hnodup, fun n hn => ⟨hfresh n hn, fun h => hfirst (h ▸ hn)⟩⟩

/-- What is in the values of a mapping. -/
theorem values_read {α : Type} {xs : List α} {P : α → Prop} {f : α → Value O}
    (h : List.Forall₂ (fun x pair => (objections py pair.2 = [] ↔ P x) ∧
      node_value py pair.2 = f x ∧ pending pair.2 = []) xs pairs) :
    (value_objections py pairs = [] ↔ ∀ x ∈ xs, P x) ∧ item_values py pairs = xs.map f ∧
      values_pending pairs = [] := by
  induction h with
  | nil => exact ⟨iff_of_true (by simp only [value_objections]) fun _ h => absurd h List.not_mem_nil,
      by simp only [item_values, List.map_nil], by simp only [values_pending]⟩
  | @cons x pair xs pairs hfirst hrest ih =>
    obtain ⟨node, value⟩ := pair
    obtain ⟨hobjections, hvalue, hpending⟩ := hfirst
    obtain ⟨hobjections', hvalues', hpending'⟩ := ih
    refine ⟨?_, ?_, ?_⟩
    · simp only [value_objections]
      rw [List.append_eq_nil_iff, List.forall_mem_cons, hobjections, hobjections']
    · simp only [item_values]
      rw [hvalue, hvalues', List.map_cons]
    · simp only [values_pending]
      rw [hpending, hpending', List.append_nil]

theorem scalar_read (py : PyYaml O) {text : String} {node : Node} (h : IsScalar resolve text node) :
    (objections py node = [] ↔ ∃ a, py.scalar (resolve text) text = .ok a) ∧
      node_value py node = .atom (plain_atom py resolve text) ∧ pending node = [] := by
  obtain ⟨mark, rfl⟩ := h
  unfold plain_atom
  simp only [objections, node_value, pending]
  cases py.scalar (resolve text) text with
  | ok a => exact ⟨iff_of_true rfl ⟨a, rfl⟩, rfl, trivial⟩
  | error e =>
    refine ⟨iff_of_false (List.cons_ne_nil _ _) ?_, rfl, trivial⟩
    rintro ⟨_, h⟩
    cases h

theorem entry_read (hreads : ReadsScalars py resolve) {block : JointBlock} {node : Node}
    (h : IsEntry resolve block node) :
    (objections py node = [] ↔ CleanEntry py resolve block) ∧
      node_value py node = (block_item py resolve block).2 ∧ pending node = [] := by
  obtain ⟨mark, pairs, rfl, hpairs⟩ := h
  have hkeys : List.Forall₂ (fun name (pair : Node × Node) => IsScalar resolve name pair.1)
      (block.key_lines.map KeyLine.key) pairs :=
    List.forall₂_map_left_iff.mpr (hpairs.imp fun _ _ h => h.1)
  obtain ⟨hkey_values, hkey_objections⟩ := keys_read hreads hkeys (by
    intro name hname
    obtain ⟨line, -, rfl⟩ := List.mem_map.mp hname
    exact List.mem_cons_of_mem _ (List.mem_append_right _ line.known))
  obtain ⟨hobjections, hvalues, hpending⟩ := values_read (hpairs.imp fun line pair h =>
    scalar_read py h.2)
  refine ⟨?_, ?_, hpending⟩
  · have hnone := hkey_objections []
    simp only [objections]
    rw [List.append_eq_nil_iff, hobjections]
    constructor
    · rintro ⟨hnodup, hlines⟩
      exact ⟨(hnone.mp hnodup).1, hlines⟩
    · rintro ⟨hnodup, hlines⟩
      exact ⟨hnone.mpr ⟨hnodup, fun _ _ => List.not_mem_nil⟩, hlines⟩
  · simp only [node_value]
    rw [hkey_values, hvalues, List.map_map, List.zip_map']
    rfl

theorem block_read (hreads : ReadsScalars py resolve) {layout : Layout} {root : Node}
    (h : IsBlock resolve layout root) :
    (document_objections py root = [] ↔ Clean py resolve layout) ∧
      node_value py root = layout_value py resolve layout := by
  obtain ⟨mark, key, mark', pairs, rfl, hkey, hpairs⟩ := h
  have hjoints : List.Forall₂ (fun name (pair : Node × Node) => IsScalar resolve name pair.1)
      (layout.blocks.map JointBlock.joint) pairs :=
    List.forall₂_map_left_iff.mpr (hpairs.imp fun _ _ h => h.1)
  obtain ⟨hjoint_values, hjoint_objections⟩ := keys_read hreads hjoints (by
    intro name hname
    obtain ⟨block, -, rfl⟩ := List.mem_map.mp hname
    exact List.mem_cons_of_mem _ (List.mem_append_left _ block.known))
  have hentries : List.Forall₂ (fun block (pair : Node × Node) =>
      (objections py pair.2 = [] ↔ CleanEntry py resolve block) ∧
        node_value py pair.2 = (block_item py resolve block).2 ∧ pending pair.2 = [])
      layout.blocks pairs := hpairs.imp fun block pair h => entry_read hreads h.2
  obtain ⟨hobjections, hvalues, hpending⟩ := values_read hentries
  have hmotors : List.Forall₂ (fun name (pair : Node × Node) => IsScalar resolve name pair.1)
      ["motors"] [(key, .mapping mark' pairs)] := .cons hkey .nil
  obtain ⟨hmotors_values, hmotors_objections⟩ := keys_read hreads hmotors (by
    intro name hname
    rw [List.mem_singleton.mp hname]
    exact List.mem_cons_self)
  have hpending' : pending (.mapping mark [(key, .mapping mark' pairs)]) = [] := by
    simp only [pending, values_pending, hpending, List.append_nil]
  constructor
  · have hnone : key_objections py [(key, .mapping mark' pairs)] [] = [] :=
      (hmotors_objections []).mpr ⟨List.nodup_singleton _, fun _ _ => List.not_mem_nil⟩
    unfold document_objections
    rw [hpending', deferred_nil, List.append_nil]
    simp only [objections, value_objections]
    rw [hnone, List.nil_append, List.append_nil, List.append_eq_nil_iff, hobjections]
    constructor
    · rintro ⟨hnodup, hentries⟩
      exact ⟨((hjoint_objections []).mp hnodup).1, hentries⟩
    · rintro ⟨hnodup, hentries⟩
      exact ⟨(hjoint_objections []).mpr ⟨hnodup, fun _ _ => List.not_mem_nil⟩, hentries⟩
  · simp only [node_value, item_values]
    rw [hmotors_values, hjoint_values, hvalues, List.map_map, List.zip_map']
    rfl

/-- The text of a layout is loaded exactly if there is nothing to object to. -/
theorem load_layout_iff (hreads : ReadsScalars py resolve) {layout : Layout} {final : Bool}
    (h : Composes py resolve layout final) (value : Value O) :
    load_yaml py (String.ofList (layout.text final)) = .ok value ↔
      Clean py resolve layout ∧ value = layout_value py resolve layout := by
  obtain ⟨root, hcompose, hblock⟩ := h
  obtain ⟨hclean, hvalue⟩ := block_read hreads hblock
  have hload : load_yaml py (String.ofList (layout.text final)) = construct_document py root := by
    unfold load_yaml
    rw [hcompose]
    rfl
  have hheeds := (construct_document_heeds root : Heeds _ _ (construct_document py root))
  rw [hload, ← hclean, ← hvalue]
  constructor
  · intro hok
    refine ⟨?_, hheeds.ok hok⟩
    by_contra hne
    obtain ⟨e, rest, heq⟩ := List.exists_cons_of_ne_nil hne
    rw [heq, hok] at hheeds
    cases hheeds
  · rintro ⟨hnone, rfl⟩
    rw [hnone] at hheeds
    obtain ⟨data, hok, rfl⟩ := hheeds.ok_of_none
    exact hok

theorem Clean.unique {layout : Layout} (h : Clean py resolve layout) :
    UniqueKeys (layout_value py resolve layout) := by
  apply uniqueKeys_dict
  · exact List.nodup_singleton _
  intro item hitem
  rw [List.mem_singleton.mp hitem]
  apply uniqueKeys_dict
  · rw [List.map_map]
    have hnodup := h.joints.map (f := Atom.str (O := O)) fun _ _ heq => Atom.str.inj heq
    rw [List.map_map] at hnodup
    exact hnodup
  intro item hitem
  obtain ⟨block, hblock, rfl⟩ := List.mem_map.mp hitem
  apply uniqueKeys_dict
  · rw [List.map_map]
    have hnodup := (h.entries block hblock).keys.map (f := Atom.str (O := O)) fun _ _ heq => Atom.str.inj heq
    rw [List.map_map] at hnodup
    exact hnodup
  intro item hitem
  obtain ⟨line, -, rfl⟩ := List.mem_map.mp hitem
  exact uniqueKeys_atom _

variable {K : Type}

/-- `parse` of a text in block style. -/
theorem parse_layout_iff (hreads : ReadsScalars py resolve) {layout : Layout} {final : Bool}
    (h : Composes py resolve layout final) (path : String) (require_gizmo : Bool)
    (config : MotorConfig) :
    (parse py (String.ofList (layout.text final)) path require_gizmo :
        Except (Exception K) MotorConfig) = .ok config ↔
      Clean py resolve layout ∧ config.path = path ∧
      ValidEntries require_gizmo (layout.blocks.map (block_item py resolve)) ∧
      List.Forall₂ Lists (layout.blocks.map (block_item py resolve)) config.motors := by
  unfold parse
  constructor
  · intro hparse
    cases hload : load_yaml py (String.ofList (layout.text final)) with
    | error e =>
      rw [hload] at hparse
      cases hparse
    | ok value =>
      rw [hload] at hparse
      obtain ⟨hclean, rfl⟩ := (load_layout_iff hreads h value).mp hload
      obtain ⟨entries, heq, hvalid, hpath, hlists⟩ :=
        (validate_ok_iff_valid py hclean.unique config).mp hparse
      injection heq with heq
      injection heq with heq
      injection heq with _ heq
      injection heq with heq
      subst heq
      exact ⟨hclean, hpath, hvalid, hlists⟩
  · rintro ⟨hclean, hpath, hvalid, hlists⟩
    rw [(load_layout_iff hreads h _).mpr ⟨hclean, rfl⟩]
    exact (validate_ok_iff_valid py hclean.unique config).mpr ⟨_, rfl, hvalid, hpath, hlists⟩

end Document

/-- The motor with its new CAN ID, if there is one. -/
def Motor.replace (can_ids : Dict String Int) (motor : Motor) : Motor :=
  match can_ids.get motor.joint with
  | some can_id => { motor with can_id := can_id.toNat }
  | none => motor

def MotorConfig.replace (can_ids : Dict String Int) (config : MotorConfig) : MotorConfig :=
  { config with motors := config.motors.map (Motor.replace can_ids) }

/-- The new CAN IDs are in the range, and with them all CAN IDs are distinct. -/
structure Assignable (config : MotorConfig) (can_ids : Dict String Int) : Prop where
  range : ∀ item ∈ can_ids, 1 ≤ item.2 ∧ item.2 ≤ 254
  distinct : ((config.replace can_ids).motors.map Motor.can_id).Nodup

section Replaced
variable {O : Type}

def set_can_id (can_id : Int) (items : Items O) : Items O :=
  items.map fun item => if item.1.is_str "can_id" then (item.1, .atom (.int can_id)) else item

theorem mem_set_can_id {can_id : Int} {items : Items O} {key : String} {value : Value O} :
    (.str key, value) ∈ set_can_id can_id items ↔
      (key ≠ "can_id" ∧ (.str key, value) ∈ items) ∨
      (key = "can_id" ∧ value = .atom (.int can_id) ∧ ∃ old, (.str "can_id", old) ∈ items) := by
  unfold set_can_id
  rw [List.mem_map]
  constructor
  · rintro ⟨⟨k, v⟩, hmem, heq⟩
    split at heq
    · rename_i hstr
      obtain rfl := is_str_iff.mp hstr
      cases heq
      exact .inr ⟨rfl, rfl, v, hmem⟩
    · rename_i hstr
      cases heq
      refine .inl ⟨?_, hmem⟩
      rintro rfl
      exact hstr (is_str_iff.mpr rfl)
  · rintro (⟨hne, hmem⟩ | ⟨rfl, rfl, old, hmem⟩)
    · refine ⟨_, hmem, if_neg ?_⟩
      intro hstr
      cases is_str_iff.mp hstr
      exact hne rfl
    · exact ⟨_, hmem, if_pos (is_str_iff.mpr rfl)⟩

theorem validItems_set_iff {joint : String} {items : Items O} (h : ValidItems joint items) (can_id : Int) :
    ValidItems joint (set_can_id can_id items) ↔ 1 ≤ can_id ∧ can_id ≤ 254 := by
  obtain ⟨hkeys, ⟨old, hid, -⟩, ⟨direction, hdirection, hone⟩, hzero⟩ := h
  constructor
  · rintro ⟨-, ⟨i, hi, hrange⟩, -, -⟩
    rcases mem_set_can_id.mp hi with ⟨hne, -⟩ | ⟨-, heq, -⟩
    · exact absurd rfl hne
    · cases heq
      exact hrange
  · intro hrange
    refine ⟨?_, ⟨can_id, mem_set_can_id.mpr (.inr ⟨rfl, rfl, _, hid⟩), hrange⟩,
      ⟨direction, mem_set_can_id.mpr (.inl ⟨by decide, hdirection⟩), hone⟩, ?_⟩
    · intro item hitem
      obtain ⟨old, hold, rfl⟩ := List.mem_map.mp hitem
      split
      · exact hkeys old hold
      · exact hkeys old hold
    · intro value hvalue
      rcases mem_set_can_id.mp hvalue with ⟨-, hmem⟩ | ⟨hne, -⟩
      · exact hzero value hmem
      · exact absurd hne (by decide)

theorem lists_set {joint : String} {items : Items O} {motor : Motor}
    (h : Lists (.str joint, .dict items) motor) {can_id : Int} (hpos : 0 ≤ can_id) :
    Lists (.str joint, .dict (set_can_id can_id items)) { motor with can_id := can_id.toNat } := by
  obtain ⟨_, heq, hid, hdirection, hzero⟩ := h
  obtain ⟨hjoint, ⟨⟩⟩ := Prod.mk.inj heq
  refine ⟨_, by rw [hjoint], mem_set_can_id.mpr (.inr ⟨rfl, ?_, _, hid⟩),
    mem_set_can_id.mpr (.inl ⟨by decide, hdirection⟩), hzero.trans ?_⟩
  · rw [Int.toNat_of_nonneg hpos]
  · rw [mem_set_can_id]
    constructor
    · exact fun h => .inl ⟨by decide, h⟩
    · rintro (⟨-, h⟩ | ⟨hne, -⟩)
      · exact h
      · exact absurd hne (by decide)

/-- An item of `motors` with its new CAN ID, if there is one. -/
def replace_item (can_ids : Dict String Int) : Atom O × Value O → Atom O × Value O
  | (.str joint, .dict items) =>
    (.str joint, .dict (match can_ids.get joint with
      | some can_id => set_can_id can_id items
      | none => items))
  | item => item

section Items
variable {can_ids : Dict String Int} {item : Atom O × Value O} {motor : Motor} {entries : Items O}
  {motors : List Motor}

theorem replace_item_key (item : Atom O × Value O) : (replace_item can_ids item).1 = item.1 := by
  unfold replace_item
  split <;> rfl

theorem validEntry_replace_iff (h : Lists item motor) (hvalid : ValidEntry item) :
    ValidEntry (replace_item can_ids item) ↔
      ∀ i, can_ids.get motor.joint = some i → 1 ≤ i ∧ i ≤ 254 := by
  obtain ⟨items, rfl, -⟩ := h
  have hold := hvalid
  obtain ⟨_, hjoint, _, ⟨⟩, hitems⟩ := hvalid
  unfold replace_item
  dsimp only
  cases can_ids.get motor.joint with
  | none => exact iff_of_true hold fun _ h => by cases h
  | some i =>
    dsimp only
    constructor
    · rintro ⟨_, _, _, ⟨⟩, hset⟩ _ ⟨⟩
      exact (validItems_set_iff hitems i).mp hset
    · exact fun hrange => ⟨_, hjoint, _, rfl, (validItems_set_iff hitems i).mpr (hrange i rfl)⟩

theorem lists_replace (h : Lists item motor)
    (hpos : ∀ i, can_ids.get motor.joint = some i → 0 ≤ i) :
    Lists (replace_item can_ids item) (motor.replace can_ids) := by
  have hlists := h
  obtain ⟨items, rfl, -⟩ := h
  unfold replace_item Motor.replace
  dsimp only
  cases hget : can_ids.get motor.joint with
  | none => exact hlists
  | some i => exact lists_set hlists (hpos i hget)

theorem entries_replace_iff (can_ids : Dict String Int) (h : List.Forall₂ Lists entries motors)
    (hvalid : ∀ item ∈ entries, ValidEntry item) :
    (∀ item ∈ entries.map (replace_item can_ids), ValidEntry item) ↔
      ∀ motor ∈ motors, ∀ i, can_ids.get motor.joint = some i → 1 ≤ i ∧ i ≤ 254 := by
  induction h with
  | nil => exact iff_of_true (fun _ h => absurd h List.not_mem_nil) fun _ h => absurd h List.not_mem_nil
  | cons hfirst _ ih =>
    obtain ⟨hentry, hrest⟩ := List.forall_mem_cons.mp hvalid
    rw [List.map_cons, List.forall_mem_cons, List.forall_mem_cons,
      validEntry_replace_iff hfirst hentry, ih hrest]

theorem lists_replace_all (h : List.Forall₂ Lists entries motors)
    (hpos : ∀ motor ∈ motors, ∀ i, can_ids.get motor.joint = some i → 0 ≤ i) :
    List.Forall₂ Lists (entries.map (replace_item can_ids)) (motors.map (Motor.replace can_ids)) := by
  induction h with
  | nil => exact .nil
  | cons hfirst _ ih =>
    obtain ⟨hmotor, hrest⟩ := List.forall_mem_cons.mp hpos
    exact .cons (lists_replace hfirst hmotor) (ih hrest)

/-- The new CAN IDs are those of the listed joints. -/
theorem range_iff (hkeys : can_ids.keys.Nodup)
    (hlisted : ∀ joint ∈ can_ids.keys, joint ∈ motors.map Motor.joint) :
    (∀ motor ∈ motors, ∀ i, can_ids.get motor.joint = some i → 1 ≤ i ∧ i ≤ 254) ↔
      ∀ item ∈ can_ids, 1 ≤ item.2 ∧ item.2 ≤ 254 := by
  constructor
  · rintro h ⟨joint, i⟩ hitem
    obtain ⟨motor, hmotor, rfl⟩ := List.mem_map.mp (hlisted joint (List.mem_map_of_mem hitem))
    exact h motor hmotor i ((lookup_iff_mem hkeys).mpr hitem)
  · intro h motor _ i hget
    exact h _ ((lookup_iff_mem hkeys).mp hget)

/-- The entries with the new CAN IDs are valid exactly if these can be assigned. -/
theorem validEntries_replace_iff {require_gizmo : Bool} {config : MotorConfig}
    (hvalid : ValidEntries require_gizmo entries) (h : List.Forall₂ Lists entries config.motors)
    (hunique : UniqueEntries (entries.map (replace_item can_ids))) (hkeys : can_ids.keys.Nodup)
    (hlisted : ∀ joint ∈ can_ids.keys, joint ∈ config.motors.map Motor.joint) :
    ValidEntries require_gizmo (entries.map (replace_item can_ids)) ↔ Assignable config can_ids := by
  have hrange := (entries_replace_iff can_ids h hvalid.entry).trans (range_iff hkeys hlisted)
  have hlists (hpos : ∀ item ∈ can_ids, 1 ≤ item.2 ∧ item.2 ≤ 254) :
      List.Forall₂ Lists (entries.map (replace_item can_ids)) (config.replace can_ids).motors := by
    apply lists_replace_all h
    intro motor hmotor i hget
    have := (range_iff hkeys hlisted).mpr hpos motor hmotor i hget
    omega
  constructor
  · rintro ⟨hentry, -, hdistinct⟩
    have hpos := hrange.mp hentry
    exact ⟨hpos, (distinct_iff (hlists hpos) hunique).mp hdistinct⟩
  · rintro ⟨hpos, hdistinct⟩
    refine ⟨hrange.mpr hpos, ?_, (distinct_iff (hlists hpos) hunique).mpr hdistinct⟩
    intro joint hjoint
    obtain ⟨entry, hentry⟩ := hvalid.listed joint hjoint
    refine ⟨(replace_item can_ids (.str joint, entry)).2, ?_⟩
    have hmem := List.mem_map_of_mem (f := replace_item can_ids) hentry
    rw [← Prod.eta (replace_item can_ids (.str joint, entry)), replace_item_key] at hmem
    exact hmem

end Items

variable {py : PyYaml O} {resolve : String → String} {can_ids : Dict String Int}

theorem key_lines_replace (block : JointBlock) : (block.replace can_ids).key_lines =
    block.key_lines.map (KeyLine.replace (can_ids.get block.joint)) := by
  unfold JointBlock.key_lines JointBlock.replace
  dsimp only
  induction block.body with
  | nil => rfl
  | cons item body ih =>
    cases item with
    | inl filler => exact ih
    | inr line =>
      exact congrArg (KeyLine.replace (can_ids.get block.joint) line :: ·) ih

theorem key_replace (can_id : Option Int) (line : KeyLine) : (line.replace can_id).key = line.key := by
  unfold KeyLine.replace
  cases can_id with
  | none => rfl
  | some can_id =>
    dsimp only
    split <;> rfl

/-- The value of a new CAN ID that can be printed. -/
theorem scalar_int_token (hreads : ReadsScalars py resolve) {i : Int} (h : (str_int i).isSome = true) :
    py.scalar (resolve (Token.string (int_token i))) (Token.string (int_token i)) = .ok (.int i) := by
  obtain ⟨text, htext⟩ := Option.isSome_iff_exists.mp h
  have hnumber := hreads.number i text htext
  unfold str_int at htext
  split at htext
  · cases htext
    exact hnumber
  · cases htext

theorem printable_line {layout : Layout} (h : layout.printable can_ids = true) {block : JointBlock}
    (hblock : block ∈ layout.blocks) {line : KeyLine} (hline : line ∈ block.key_lines) :
    line.printable (can_ids.get block.joint) = true := by
  have hbody := List.all_eq_true.mp (List.all_eq_true.mp h block hblock)
  obtain ⟨item, hitem, hright⟩ := List.mem_filterMap.mp hline
  obtain rfl := Sum.getRight?_eq_some_iff.mp hright
  exact hbody _ hitem

/-- A printable line keeps its value, or has the new CAN ID for one. -/
theorem replaced_line (hreads : ReadsScalars py resolve) {can_id : Option Int} {line : KeyLine}
    (h : line.printable can_id = true) :
    (line.replace can_id = line ∧ (line.key = "can_id" → can_id = none)) ∨
    ∃ i, can_id = some i ∧ line.key = "can_id" ∧
      line.replace can_id = { line with value := int_token i } ∧
      py.scalar (resolve (Token.string (int_token i))) (Token.string (int_token i)) =
        .ok (.int i) := by
  unfold KeyLine.printable at h
  unfold KeyLine.replace
  cases can_id with
  | none => exact .inl ⟨rfl, fun _ => rfl⟩
  | some i =>
    dsimp only at h ⊢
    by_cases hkey : line.key = "can_id"
    · rw [hkey, bne_self_eq_false, Bool.false_or] at h
      rw [if_pos hkey]
      exact .inr ⟨i, rfl, hkey, rfl, scalar_int_token hreads h⟩
    · rw [if_neg hkey]
      exact .inl ⟨rfl, fun h => absurd h hkey⟩

theorem Clean.replace (hreads : ReadsScalars py resolve) {layout : Layout}
    (h : Clean py resolve layout) (hprint : layout.printable can_ids = true) :
    Clean py resolve (layout.replace can_ids) := by
  constructor
  · unfold Layout.replace
    dsimp only
    rw [List.map_map]
    exact h.joints
  · intro block hblock
    obtain ⟨old, hold, rfl⟩ := List.mem_map.mp hblock
    obtain ⟨hkeys, hvalues⟩ := h.entries old hold
    constructor
    · rw [key_lines_replace, List.map_map]
      have hsame : KeyLine.key ∘ KeyLine.replace (can_ids.get old.joint) = KeyLine.key :=
        funext (key_replace _)
      rw [hsame]
      exact hkeys
    · intro line hline
      rw [key_lines_replace] at hline
      obtain ⟨first, hfirst, rfl⟩ := List.mem_map.mp hline
      rcases replaced_line hreads (printable_line hprint hold hfirst) with
        ⟨heq, -⟩ | ⟨i, -, -, heq, hscalar⟩
      · rw [heq]
        exact hvalues first hfirst
      · rw [heq]
        exact ⟨_, hscalar⟩

/-- An entry with its new CAN ID, if there is one. -/
theorem block_item_replace (hreads : ReadsScalars py resolve) {layout : Layout}
    (hprint : layout.printable can_ids = true) {block : JointBlock} (hblock : block ∈ layout.blocks) :
    block_item py resolve (block.replace can_ids) =
      replace_item can_ids (block_item py resolve block) := by
  unfold block_item replace_item
  dsimp only
  rw [key_lines_replace]
  have hlines : ∀ line ∈ block.key_lines, line.printable (can_ids.get block.joint) = true :=
    fun line hline => printable_line hprint hblock hline
  change (Atom.str block.joint, Value.dict _) = _
  generalize can_ids.get block.joint = can_id at hlines ⊢
  rw [List.map_map]
  cases can_id with
  | none => rfl
  | some i =>
    dsimp only
    unfold set_can_id
    rw [List.map_map]
    congr 2
    apply List.map_congr_left
    intro line hline
    show key_item py resolve (line.replace (some i)) =
      if (Atom.str line.key : Atom O).is_str "can_id" then _ else _
    rcases replaced_line hreads (hlines line hline) with ⟨heq, hother⟩ | ⟨_, ⟨⟩, hkey, heq, hscalar⟩
    · have hkey : ¬ line.key = "can_id" := fun hkey => by cases hother hkey
      rw [heq, if_neg fun h => hkey (Atom.str.inj (is_str_iff.mp h))]
    · rw [heq, if_pos (is_str_iff.mpr (by rw [hkey]))]
      unfold key_item plain_atom
      dsimp only
      rw [hscalar]

theorem items_replace (hreads : ReadsScalars py resolve) {layout : Layout}
    (hprint : layout.printable can_ids = true) :
    (layout.replace can_ids).blocks.map (block_item py resolve) =
      (layout.blocks.map (block_item py resolve)).map (replace_item can_ids) := by
  unfold Layout.replace
  rw [List.map_map, List.map_map]
  apply List.map_congr_left
  exact fun block hblock => block_item_replace hreads hprint hblock

variable {K : Type} {layout : Layout} {final : Bool} {path : String} {config : MotorConfig}

/-- The text with the new CAN IDs is accepted exactly if these can be assigned, and only they
change. -/
theorem parse_replaced_iff (hreads : ReadsScalars py resolve) (hold : Composes py resolve layout final)
    (hnew : Composes py resolve (layout.replace can_ids) final)
    (hparse : (parse py (String.ofList (layout.text final)) path false :
      Except (Exception K) MotorConfig) = .ok config)
    (hprint : layout.printable can_ids = true) (hkeys : can_ids.keys.Nodup)
    (hlisted : ∀ joint ∈ can_ids.keys, joint ∈ config.motors.map Motor.joint)
    (config' : MotorConfig) :
    (parse py (String.ofList ((layout.replace can_ids).text final)) path false :
        Except (Exception K) MotorConfig) = .ok config' ↔
      Assignable config can_ids ∧ config' = config.replace can_ids := by
  obtain ⟨hclean, hpath, hvalid, hlists⟩ := (parse_layout_iff hreads hold path false config).mp hparse
  have hclean' := hclean.replace hreads hprint
  have hunique := (hclean'.unique.entries List.mem_cons_self).2.2
  rw [parse_layout_iff hreads hnew]
  rw [items_replace hreads hprint] at hunique ⊢
  rw [validEntries_replace_iff hvalid hlists hunique hkeys hlisted]
  have hreplaced (h : Assignable config can_ids) : List.Forall₂ Lists
      ((layout.blocks.map (block_item py resolve)).map (replace_item can_ids))
      (config.replace can_ids).motors := by
    apply lists_replace_all hlists
    intro motor hmotor i hget
    have := (range_iff hkeys hlisted).mpr h.range motor hmotor i hget
    omega
  constructor
  · rintro ⟨-, hpath', hassignable, hlists'⟩
    refine ⟨hassignable, ?_⟩
    have hmotors := Lists.unique_forall hlists' (hreplaced hassignable) hunique
    obtain ⟨path', motors'⟩ := config'
    rw [MotorConfig.replace, MotorConfig.mk.injEq]
    exact ⟨hpath'.trans hpath.symm, hmotors⟩
  · rintro ⟨hassignable, rfl⟩
    exact ⟨hclean', hpath, hassignable, hreplaced hassignable⟩

theorem range_printable {i : Int} (h : 1 ≤ i ∧ i ≤ 254) : (str_int i).isSome = true := by
  have hlength : (Nat.toDigits 10 i.natAbs).length ≤ 3 :=
    (Nat.length_toDigits_le_iff (by omega) (by omega)).mpr (by omega)
  unfold str_int
  rw [if_pos (hlength.trans (by decide))]
  rfl

/-- CAN IDs that can be assigned can be printed. -/
theorem Assignable.printable (h : Assignable config can_ids) (hkeys : can_ids.keys.Nodup)
    (layout : Layout) : layout.printable can_ids = true := by
  apply List.all_eq_true.mpr
  intro block _
  apply List.all_eq_true.mpr
  rintro (filler | line) _
  · rfl
  · show line.printable (can_ids.get block.joint) = true
    unfold KeyLine.printable
    cases hget : can_ids.get block.joint with
    | none => rfl
    | some i =>
      dsimp only
      rw [range_printable (h.range _ ((lookup_iff_mem hkeys).mp hget)), Bool.or_true]

end Replaced

end IotRobot.Tool
