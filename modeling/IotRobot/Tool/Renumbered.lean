import IotRobot.Tool.Accepted
import IotRobot.Tool.WriteCanIds

/-!
# New numbers in any accepted file

The scanner of `write_can_ids` replaces value tokens in whatever YAML it is given. Where each token
is a value of its own, PyYAML reads the same document with other numbers; then the joints that get
no new CAN ID keep theirs, whichever joint the scanner took a line for.
-/

namespace IotRobot.Tool

open Lib Can
open Stm32 (Text is_space stripped)

set_option autoImplicit false

/-- The characters that delimit values in flow style. -/
def is_flow_indicator (ch : Char) : Bool :=
  ch == ',' || ch == '[' || ch == ']' || ch == '{' || ch == '}'

section Tokens
variable (can_ids : Dict String Int)

/-- The value on a line that the scanner replaces, if it replaces one. -/
def replaced_token (s : Scan) (line : Text) : Option Text :=
  let text := stripped line
  if text = [] ∨ text.head? = some '#' ∨ indent_of line = 0 ∨ s.in_motors = false ∨
      indent_of line = s.joint_indent.getD (indent_of line) then none
  else
    match s.joint.bind fun joint => can_ids.get (String.ofList joint), can_id_line line with
    | some _, some (_, value, _) => some value
    | _, _ => none

def replaced_tokens : Scan → List Text → List Text
  | _, [] => []
  | s, line :: lines =>
    (replaced_token can_ids s line).toList ++
      match (scan_line can_ids s line : Except (Exception Unit) (Scan × Text)) with
      | .ok (s, _) => replaced_tokens s lines
      | .error _ => []

/-- No token that is replaced reaches beyond its value. -/
def WholeValues (text : Text) : Prop :=
  ∀ token ∈ replaced_tokens can_ids {} (splitlines text), token.any is_flow_indicator = false

end Tokens

mutual

/-- The same node, with new CAN IDs in place of some scalars. -/
inductive Renumbered (resolve : String → String) (can_ids : Dict String Int) : Node → Node → Prop
  | kept (mark mark' tag value : String) :
      Renumbered resolve can_ids (.scalar mark tag value) (.scalar mark' tag value)
  | number (mark mark' tag value : String) (item : String × Int) (text : Text) (hitem : item ∈ can_ids)
      (htext : str_int item.2 = some text) :
      Renumbered resolve can_ids (.scalar mark tag value)
        (.scalar mark' (resolve (String.ofList text)) (String.ofList text))
  | mapping (mark mark' : String) (pairs pairs' : List (Node × Node))
      (h : RenumberedPairs resolve can_ids pairs pairs') :
      Renumbered resolve can_ids (.mapping mark pairs) (.mapping mark' pairs')

inductive RenumberedPairs (resolve : String → String) (can_ids : Dict String Int) :
    List (Node × Node) → List (Node × Node) → Prop
  | nil : RenumberedPairs resolve can_ids [] []
  | cons (mark mark' tag key : String) (value value' : Node) (pairs pairs' : List (Node × Node))
      (first : Renumbered resolve can_ids value value')
      (rest : RenumberedPairs resolve can_ids pairs pairs') :
      RenumberedPairs resolve can_ids ((.scalar mark tag key, value) :: pairs)
        ((.scalar mark' tag key, value') :: pairs')

end

/-- PyYAML reads names and numbers as such, and a number in place of a whole value leaves the
document as it is. -/
structure RereadsNumbers {O : Type} (py : PyYaml O) (resolve : String → String)
    (can_ids : Dict String Int) (text : String) : Prop where
  scalars : ReadsScalars py resolve
  same : ∀ (K : Type) (new : Text) (path path' : String) (config config' : MotorConfig)
      (root root' : Node),
    WholeValues can_ids text.toList →
    (rewrite_text can_ids text.toList : Except (Exception K) Text) = .ok new →
    py.compose text = .ok (some root) → py.compose (String.ofList new) = .ok (some root') →
    (parse py text path false : Except (Exception K) MotorConfig) = .ok config →
    (parse py (String.ofList new) path' false : Except (Exception K) MotorConfig) = .ok config' →
    Renumbered resolve can_ids root root'

section Values
variable {O : Type}

mutual

/-- The same value, with new CAN IDs in place of some atoms. -/
inductive Revalued (can_ids : Dict String Int) : Value O → Value O → Prop
  | kept (a : Atom O) : Revalued can_ids (.atom a) (.atom a)
  | number (a : Atom O) (item : String × Int) (hitem : item ∈ can_ids) :
      Revalued can_ids (.atom a) (.atom (.int item.2))
  | dict (items items' : Items O) (h : RevaluedItems can_ids items items') :
      Revalued can_ids (.dict items) (.dict items')

inductive RevaluedItems (can_ids : Dict String Int) : Items O → Items O → Prop
  | nil : RevaluedItems can_ids [] []
  | cons (key : Atom O) (value value' : Value O) (items items' : Items O)
      (first : Revalued can_ids value value') (rest : RevaluedItems can_ids items items') :
      RevaluedItems can_ids ((key, value) :: items) ((key, value') :: items')

end

variable {py : PyYaml O} {resolve : String → String} {can_ids : Dict String Int}

theorem scalar_value (py : PyYaml O) (mark tag value : String) :
    ∃ a, (∀ mark' : String, node_value py (.scalar mark' tag value) = .atom a) ∧
      node_value py (.scalar mark tag value) = .atom a := by
  simp only [node_value]
  cases py.scalar tag value with
  | ok a => exact ⟨a, fun _ => rfl, rfl⟩
  | error e => exact ⟨.none_, fun _ => rfl, rfl⟩

mutual

theorem Renumbered.revalued (hreads : ReadsScalars py resolve) {node node' : Node}
    (h : Renumbered resolve can_ids node node') :
    Revalued can_ids (node_value py node) (node_value py node') := by
  cases h with
  | kept mark mark' tag value =>
    obtain ⟨a, hany, hvalue⟩ := scalar_value py mark tag value
    rw [hvalue, hany]
    exact .kept a
  | number mark mark' tag value item text hitem htext =>
    obtain ⟨a, -, hvalue⟩ := scalar_value py mark tag value
    have hnumber : node_value py (.scalar mark' (resolve (String.ofList text)) (String.ofList text)) =
        .atom (.int item.2) := by
      simp only [node_value, hreads.number item.2 text htext]
    rw [hvalue, hnumber]
    exact .number a item hitem
  | mapping mark mark' pairs pairs' h =>
    simp only [node_value]
    exact .dict _ _ (h.revalued hreads)

theorem RenumberedPairs.revalued (hreads : ReadsScalars py resolve) {pairs pairs' : List (Node × Node)}
    (h : RenumberedPairs resolve can_ids pairs pairs') :
    RevaluedItems can_ids ((key_values py pairs).zip (item_values py pairs))
      ((key_values py pairs').zip (item_values py pairs')) := by
  cases h with
  | nil =>
    simp only [key_values, item_values, List.zip_nil_left]
    exact .nil
  | cons mark mark' tag key value value' pairs pairs' first rest =>
    obtain ⟨a, hany, hvalue⟩ := scalar_value py mark tag key
    simp only [key_values, item_values, hvalue, hany, List.zip_cons_cons]
    exact .cons a _ _ _ _ (first.revalued hreads) (rest.revalued hreads)

end

theorem RevaluedItems.keys {items items' : Items O} (h : RevaluedItems can_ids items items') :
    items'.map Prod.fst = items.map Prod.fst := by
  induction items generalizing items' with
  | nil =>
    cases h
    rfl
  | cons item items ih =>
    cases h with
    | cons key value value' _ items' first rest => rw [List.map_cons, List.map_cons, ih rest]

theorem RevaluedItems.mem {items items' : Items O} (h : RevaluedItems can_ids items items')
    {key : Atom O} {value : Value O} (hmem : (key, value) ∈ items) :
    ∃ value', (key, value') ∈ items' ∧ Revalued can_ids value value' := by
  induction items generalizing items' with
  | nil => cases hmem
  | cons item items ih =>
    cases h with
    | cons _ _ value' _ items' first rest =>
      rcases List.mem_cons.mp hmem with heq | hmem
      · cases heq
        exact ⟨value', List.mem_cons_self, first⟩
      · obtain ⟨value', hmem', hvalue⟩ := ih rest hmem
        exact ⟨value', List.mem_cons_of_mem _ hmem', hvalue⟩

theorem uniqueKeys_dict_iff {items : Items O} : UniqueKeys (.dict items) ↔
    (items.map Prod.fst).Nodup ∧ ∀ item ∈ items, UniqueKeys item.2 := by
  constructor
  · intro h
    exact ⟨h _ (.here items), fun item hitem items' hwithin => h _ (.there hitem hwithin)⟩
  · rintro ⟨hkeys, hvalues⟩
    exact uniqueKeys_dict hkeys hvalues

mutual

theorem Revalued.unique {value value' : Value O} (h : Revalued can_ids value value')
    (hunique : UniqueKeys value) : UniqueKeys value' := by
  cases h with
  | kept a => exact uniqueKeys_atom a
  | number a item hitem => exact uniqueKeys_atom _
  | dict items items' h =>
    obtain ⟨hkeys, hvalues⟩ := uniqueKeys_dict_iff.mp hunique
    refine uniqueKeys_dict_iff.mpr ⟨?_, h.unique hvalues⟩
    rw [h.keys]
    exact hkeys

theorem RevaluedItems.unique {items items' : Items O} (h : RevaluedItems can_ids items items')
    (hvalues : ∀ item ∈ items, UniqueKeys item.2) : ∀ item ∈ items', UniqueKeys item.2 := by
  cases h with
  | nil => exact fun _ h => absurd h List.not_mem_nil
  | cons key value value' items items' first rest =>
    obtain ⟨hfirst, hrest⟩ := List.forall_mem_cons.mp hvalues
    exact List.forall_mem_cons.mpr ⟨first.unique hfirst, rest.unique hrest⟩

end

/-- A motor of the new file: the joint of the old one, and its CAN ID or a new one. -/
def KeptOrNew (can_ids : Dict String Int) (motor motor' : Motor) : Prop :=
  motor'.joint = motor.joint ∧
    (motor'.can_id = motor.can_id ∨ ∃ item ∈ can_ids, (motor'.can_id : Int) = item.2)

theorem revalued_atom {a b : Atom O} (h : Revalued can_ids (.atom a) (.atom b)) :
    b = a ∨ ∃ item ∈ can_ids, b = .int item.2 := by
  cases h with
  | kept _ => exact .inl rfl
  | number _ item hitem => exact .inr ⟨item, hitem, rfl⟩

theorem lists_kept_or_new {key : Atom O} {value value' : Value O} {motor motor' : Motor}
    (h : Lists (key, value) motor) (h' : Lists (key, value') motor')
    (hvalue : Revalued can_ids value value') (hunique : UniqueKeys value') :
    KeptOrNew can_ids motor motor' := by
  obtain ⟨items, heq, hid, -⟩ := h
  obtain ⟨items', heq', hid', -⟩ := h'
  cases heq
  obtain ⟨hjoint, rfl⟩ := Prod.mk.inj heq'
  refine ⟨(Atom.str.inj hjoint).symm, ?_⟩
  cases hvalue with
  | dict _ _ hitems =>
    obtain ⟨can_id, hcan_id, hkept⟩ := hitems.mem hid
    have hkeys := (uniqueKeys_dict_iff.mp hunique).1
    rw [← get_item_iff hkeys] at hcan_id hid'
    rw [hid'] at hcan_id
    cases hcan_id
    rcases revalued_atom hkept with heq | ⟨item, hitem, heq⟩
    · exact .inl (Int.ofNat.inj (Atom.int.inj heq))
    · exact .inr ⟨item, hitem, Atom.int.inj heq⟩

theorem all_kept_or_new {entries entries' : Items O} {motors motors' : List Motor}
    (h : List.Forall₂ Lists entries motors) (h' : List.Forall₂ Lists entries' motors')
    (hentries : RevaluedItems can_ids entries entries')
    (hunique : ∀ item ∈ entries', UniqueKeys item.2) :
    List.Forall₂ (KeptOrNew can_ids) motors motors' := by
  induction h generalizing entries' motors' with
  | nil =>
    cases hentries
    cases h'
    exact .nil
  | cons hfirst _ ih =>
    cases hentries with
    | cons key value value' _ entries' first rest =>
      cases h' with
      | cons hfirst' hrest' =>
        obtain ⟨hunique, hunique'⟩ := List.forall_mem_cons.mp hunique
        exact .cons (lists_kept_or_new hfirst hfirst' first hunique) (ih hrest' rest hunique')

theorem forall₂_get {motors motors' : List Motor} (h : List.Forall₂ (KeptOrNew can_ids) motors motors')
    {motor : Motor} (hmem : motor ∈ motors) : ∃ motor' ∈ motors', KeptOrNew can_ids motor motor' := by
  induction h with
  | nil => cases hmem
  | @cons m m' motors motors' hfirst _ ih =>
    rcases List.mem_cons.mp hmem with rfl | hmem
    · exact ⟨m', List.mem_cons_self, hfirst⟩
    · obtain ⟨motor', hmem', hkept⟩ := ih hmem
      exact ⟨motor', List.mem_cons_of_mem _ hmem', hkept⟩

variable {K : Type}

theorem parse_root {text path : String} {require_gizmo : Bool} {config : MotorConfig}
    (h : (parse py text path require_gizmo : Except (Exception K) MotorConfig) = .ok config) :
    ∃ root, py.compose text = .ok (some root) ∧ load_yaml py text = .ok (node_value py root) ∧
      (validate py path require_gizmo (node_value py root) : Except (Exception K) MotorConfig) =
        .ok config := by
  unfold parse at h
  cases hload : load_yaml py text with
  | error e =>
    rw [hload] at h
    cases h
  | ok value =>
    rw [hload] at h
    unfold load_yaml at hload
    cases hcompose : py.compose text with
    | error e =>
      rw [hcompose] at hload
      cases hload
    | ok root =>
      rw [hcompose] at hload
      cases root with
      | none =>
        cases hload
        cases h
      | some root =>
        obtain rfl := (construct_document_heeds root).ok hload
        exact ⟨root, rfl, rfl, h⟩

/-- Joints without a new CAN ID keep theirs. -/
theorem others_kept {text : String} {new : Text} {path path' : String} {config config' : MotorConfig}
    {value : Value O} (hreads : RereadsNumbers py resolve can_ids text)
    (hwhole : WholeValues can_ids text.toList)
    (hnew : (rewrite_text can_ids text.toList : Except (Exception K) Text) = .ok new)
    (hload : load_yaml py text = .ok value) (hunique : UniqueKeys value)
    (hparse : (parse py text path false : Except (Exception K) MotorConfig) = .ok config)
    (hparse' : (parse py (String.ofList new) path' false : Except (Exception K) MotorConfig) = .ok config')
    (hfound : unchanged config' can_ids = []) :
    Consistent config' ∧ ∀ motor ∈ config.motors, motor.joint ∉ can_ids.keys →
      ∃ motor', config'.get motor.joint = some motor' ∧ motor'.can_id = motor.can_id := by
  obtain ⟨root, hroot, hloaded, hvalid⟩ := parse_root hparse
  obtain ⟨root', hroot', -, hvalid'⟩ := parse_root hparse'
  rw [hload] at hloaded
  cases hloaded
  have hsame := hreads.same K new path path' config config' root root' hwhole hnew hroot hroot' hparse
    hparse'
  have hvalues := hsame.revalued hreads.scalars
  have hunique' := hvalues.unique hunique
  obtain ⟨entries, heq, -, -, hlists⟩ := (validate_ok_iff_valid py hunique config).mp hvalid
  obtain ⟨entries', heq', hentries', -, hlists'⟩ := (validate_ok_iff_valid py hunique' config').mp hvalid'
  rw [heq'] at hunique'
  obtain ⟨-, hkeys', hunique_entries'⟩ := hunique'.entries List.mem_cons_self
  obtain ⟨hconsistent, -⟩ := hentries'.consistent hlists' hkeys' hunique_entries'
  have hentry : ∀ item ∈ entries', UniqueKeys item.2 :=
    (uniqueKeys_dict_iff.mp ((uniqueKeys_dict_iff.mp hunique').2 _ List.mem_cons_self)).2
  rw [heq, heq'] at hvalues
  have hitems : RevaluedItems can_ids entries entries' := by
    cases hvalues with
    | dict _ _ h =>
      cases h with
      | cons _ _ _ _ _ first _ =>
        cases first with
        | dict _ _ h => exact h
  have hkept := all_kept_or_new hlists hlists' hitems hentry
  refine ⟨hconsistent, fun motor hmotor hother => ?_⟩
  obtain ⟨motor', hmotor', hjoint, hid⟩ := forall₂_get hkept hmotor
  refine ⟨motor', hconsistent.get_iff.mpr ⟨hmotor', hjoint⟩, ?_⟩
  rcases hid with hid | ⟨item, hitem, hid⟩
  · exact hid
  · -- a new CAN ID is found at its own joint, and no two joints share one
    obtain ⟨found, hget, hfound⟩ := unchanged_nil_iff.mp hfound item hitem
    obtain ⟨hmem, hitem_joint⟩ := hconsistent.get_iff.mp hget
    have hsame_id : found.can_id = motor'.can_id := by omega
    have hsame := List.inj_on_of_nodup_map hconsistent.ids hmem hmotor' hsame_id
    refine absurd ?_ hother
    rw [← hjoint, ← hsame, hitem_joint]
    exact List.mem_map_of_mem hitem

end Values

end IotRobot.Tool
