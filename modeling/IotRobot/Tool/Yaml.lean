import IotRobot.Can.Cubemars

/-!
# YAML documents and the loader of `motor_config`

PyYAML reads a text into a tree of nodes and constructs Python values from it;
`motor_config` replaces its constructor for mappings by `_construct_mapping`. A
mapping is constructed on the spot, keys first; a sequence becomes a list that
is filled once the rest of the document is constructed, in rounds. `PyYaml` is
what the loader uses of PyYAML and of Python beyond that.

`objections` lists, in the order of construction, everything that the loader
can object to in a document. It raises the first of them.
-/

namespace IotRobot.Tool

open Lib

set_option autoImplicit false

/-- A node with its tag, where a constructor looks at it, and the text of its
`start_mark`. Aliases are expanded. -/
inductive Node where
  | scalar (mark : String) (tag : String) (value : String)
  | sequence (mark : String) (items : List Node)
  | mapping (mark : String) (pairs : List (Node × Node))

/-- A value other than a list or a dictionary; `O` holds floats, dates and the like. -/
inductive Atom (O : Type) where
  | none_
  | bool (b : Bool)
  | int (i : Int)
  | str (s : String)
  | other (o : O)
  deriving DecidableEq

/-- A constructed value. A list is given by the nodes of its items. -/
inductive Value (O : Type) where
  | atom (a : Atom O)
  | list (items : List Node)
  | dict (items : List (Atom O × Value O))

/-- What construction can raise: a `YAMLError` with its text, the `TypeError` of an
unhashable key, the `ValueError` of an integer too long to print, or an exception of
PyYAML that is no `YAMLError`. -/
inductive YamlRaise where
  | yaml_error (text : String)
  | type_error
  | value_error
  | other
  deriving DecidableEq

structure PyYaml (O : Type) where
  /-- Reader, scanner, parser and composer: the root node, if the text has one. -/
  compose : String → Except YamlRaise (Option Node)
  /-- The constructor of a scalar with this tag and value. -/
  scalar : String → String → Except YamlRaise (Atom O)
  /-- `==` between hashable values. -/
  same : Atom O → Atom O → Bool
  /-- `str` of a key; an integer of too many digits has none. -/
  text : Atom O → Option String
  /-- `repr` of a value, likewise. -/
  repr : Value O → Option String

section Construct
variable {O : Type} (py : PyYaml O)

/-- `state_generators`: the lists still to be filled. -/
abbrev Generators := List (List Node)

def Node.mark : Node → String
  | .scalar mark _ _ | .sequence mark _ | .mapping mark _ => mark

/-- The `ConstructorError` for a key that is already in `seen`. -/
def duplicate_key (key : Atom O) (mark : String) : YamlRaise :=
  match py.text key with
  | some text => .yaml_error s!"'{text}' appears twice in the same mapping\n{mark}"
  | none => .value_error

mutual

/-- `construct_object`, with the generators it leaves behind. -/
def construct_object : Node → Generators → Except YamlRaise (Value O × Generators)
  | .scalar _ tag value, gens => do
    let a ← py.scalar tag value
    pure (.atom a, gens)
  | .sequence _ items, gens => pure (.list items, gens ++ [items])
  | .mapping _ pairs, gens => do
    let (keys, gens) ← construct_keys pairs [] gens
    let (values, gens) ← construct_values pairs gens
    pure (.dict (keys.zip values), gens)

/-- The loop of `_construct_mapping` over the keys; looking up a list or a dictionary in
`seen` raises. -/
def construct_keys : List (Node × Node) → List (Atom O) → Generators →
    Except YamlRaise (List (Atom O) × Generators)
  | [], seen, gens => pure (seen, gens)
  | (key_node, _) :: rest, seen, gens => do
    let (key, gens) ← construct_object key_node gens
    match key with
    | .atom key =>
      if seen.any (py.same key) then throw (duplicate_key py key key_node.mark)
      else construct_keys rest (seen ++ [key]) gens
    | _ => throw .type_error

/-- `construct_mapping` of PyYAML, whose keys are constructed already. -/
def construct_values : List (Node × Node) → Generators →
    Except YamlRaise (List (Value O) × Generators)
  | [], gens => pure ([], gens)
  | (_, value_node) :: rest, gens => do
    let (value, gens) ← construct_object value_node gens
    let (values, gens) ← construct_values rest gens
    pure (value :: values, gens)

end

/-- `construct_sequence`: the items of one list. -/
def construct_items : List Node → Generators → Except YamlRaise Generators
  | [], gens => pure gens
  | node :: rest, gens => do
    let (_, gens) ← construct_object py node gens
    construct_items rest gens

/-- One round over the generators; the lists it meets wait for the next round. -/
def run_generators : Generators → Generators → Except YamlRaise Generators
  | [], later => pure later
  | items :: gens, later => do
    let later ← construct_items py items later
    run_generators gens later

/-- `while self.state_generators`, at most `rounds` times. -/
def drain : Nat → Generators → Except YamlRaise Unit
  | 0, _ => pure ()
  | rounds + 1, gens =>
    if gens = [] then pure ()
    else do
      let later ← run_generators py gens []
      drain rounds later

mutual

/-- How deep lists are nested in a node, keys aside. -/
def Node.nesting : Node → Nat
  | .scalar _ _ _ => 0
  | .sequence _ items => items_nesting items + 1
  | .mapping _ pairs => values_nesting pairs

def items_nesting : List Node → Nat
  | [] => 0
  | node :: rest => max node.nesting (items_nesting rest)

def values_nesting : List (Node × Node) → Nat
  | [] => 0
  | (_, value_node) :: rest => max value_node.nesting (values_nesting rest)

end

def construct_document (root : Node) : Except YamlRaise (Value O) := do
  let (data, gens) ← construct_object py root []
  drain py (root.nesting + 1) gens
  pure data

/-- `yaml.load(text, Loader=_UniqueKeyLoader)`. -/
def load_yaml (text : String) : Except YamlRaise (Value O) := do
  match ← py.compose text with
  | none => pure (.atom .none_)
  | some root => construct_document py root

mutual

/-- What can be objected to in a node before its lists are filled. -/
def objections : Node → List YamlRaise
  | .scalar _ tag value =>
    match py.scalar tag value with
    | .ok _ => []
    | .error e => [e]
  | .sequence _ _ => []
  | .mapping _ pairs => key_objections pairs [] ++ value_objections pairs

def key_objections : List (Node × Node) → List (Atom O) → List YamlRaise
  | [], _ => []
  | (.scalar mark tag value, _) :: rest, seen =>
    match py.scalar tag value with
    | .ok key =>
      if seen.any (py.same key) then duplicate_key py key mark :: key_objections rest seen
      else key_objections rest (seen ++ [key])
    | .error e => e :: key_objections rest seen
  | (key_node, _) :: rest, seen =>
    objections key_node ++ .type_error :: key_objections rest seen

def value_objections : List (Node × Node) → List YamlRaise
  | [] => []
  | (_, value_node) :: rest => objections value_node ++ value_objections rest

end

mutual

/-- The lists of a node that are filled later. -/
def pending : Node → Generators
  | .scalar _ _ _ => []
  | .sequence _ items => [items]
  | .mapping _ pairs => values_pending pairs

def values_pending : List (Node × Node) → Generators
  | [] => []
  | (_, value_node) :: rest => pending value_node ++ values_pending rest

end

mutual

/-- The value of a node that nothing is objected to in. -/
def node_value : Node → Value O
  | .scalar _ tag value =>
    match py.scalar tag value with
    | .ok a => .atom a
    | .error _ => .atom .none_
  | .sequence _ items => .list items
  | .mapping _ pairs => .dict ((key_values pairs).zip (item_values pairs))

def key_values : List (Node × Node) → List (Atom O)
  | [] => []
  | (key_node, _) :: rest =>
    match node_value key_node with
    | .atom key => key :: key_values rest
    | _ => key_values rest

def item_values : List (Node × Node) → List (Value O)
  | [] => []
  | (_, value_node) :: rest => node_value value_node :: item_values rest

end

/-- What can be objected to while lists are filled. -/
def deferred : Nat → Generators → List YamlRaise
  | 0, _ => []
  | rounds + 1, gens =>
    gens.flatten.flatMap (objections py) ++ deferred rounds (gens.flatten.flatMap pending)

/-- Everything that can be objected to in a document, in the order of construction. -/
def document_objections (root : Node) : List YamlRaise :=
  objections py root ++ deferred py (root.nesting + 1) (pending root)

end Construct

/-- A computation raises the first objection, or succeeds with `P` if there is none. -/
inductive Heeds {α : Type} (P : α → Prop) : List YamlRaise → Except YamlRaise α → Prop
  | first (e : YamlRaise) (rest : List YamlRaise) : Heeds P (e :: rest) (.error e)
  | none_ (a : α) : P a → Heeds P [] (.ok a)

section Order
variable {O : Type} {py : PyYaml O}

/-- One computation after another. -/
theorem Heeds.bind {α β : Type} {P : α → Prop} {Q : β → Prop} {os os' : List YamlRaise}
    {x : Except YamlRaise α} {f : α → Except YamlRaise β} (hx : Heeds P os x)
    (hf : ∀ a, P a → Heeds Q os' (f a)) : Heeds Q (os ++ os') (x >>= f) := by
  cases hx with
  | first e rest => exact .first e (rest ++ os')
  | none_ a ha => exact hf a ha

theorem Heeds.ok_of_none {α : Type} {P : α → Prop} {x : Except YamlRaise α} (hx : Heeds P [] x) :
    ∃ a, x = .ok a ∧ P a := by
  cases hx with
  | none_ a ha => exact ⟨a, rfl, ha⟩

/-- Whatever the objections, what a computation returns has the property. -/
theorem Heeds.ok {α : Type} {P : α → Prop} {os : List YamlRaise} {x : Except YamlRaise α} {a : α}
    (hx : Heeds P os x) (h : x = .ok a) : P a := by
  subst h
  cases hx with
  | none_ _ ha => exact ha

theorem Heeds.weaken {α : Type} {P Q : α → Prop} {os : List YamlRaise} {x : Except YamlRaise α}
    (hx : Heeds P os x) (h : ∀ a, P a → Q a) : Heeds Q os x := by
  cases hx with
  | first e rest => exact .first e rest
  | none_ a ha => exact .none_ a (h a ha)

/-- What is constructed from a node without objection. -/
structure Constructed (py : PyYaml O) (node : Node) (gens : Generators)
    (r : Value O × Generators) : Prop where
  value : r.1 = node_value py node
  left : r.2 = gens ++ pending node

mutual

theorem construct_object_heeds : ∀ (node : Node) (gens : Generators),
    Heeds (Constructed py node gens) (objections py node) (construct_object py node gens)
  | .scalar mark tag value, gens => by
    simp only [construct_object, objections]
    cases hscalar : py.scalar tag value with
    | ok a =>
      refine .none_ _ ⟨?_, (List.append_nil gens).symm⟩
      simp only [node_value, hscalar]
    | error e => exact .first e []
  | .sequence mark items, gens => .none_ _ ⟨by simp only [node_value], rfl⟩
  | .mapping mark pairs, gens => by
    refine (construct_keys_heeds pairs [] gens).bind fun keys hkeys => ?_
    have hvalues := construct_values_heeds pairs keys.2
    rw [← List.append_nil (value_objections py pairs)]
    refine hvalues.bind fun values hvalues => .none_ _ ⟨?_, ?_⟩
    · show Value.dict (keys.1.zip values.1) = _
      rw [hkeys.1, hvalues.1, List.nil_append]
      simp only [node_value]
    · exact hvalues.2.trans (by rw [hkeys.2]; rfl)

theorem construct_keys_heeds : ∀ (pairs : List (Node × Node)) (seen : List (Atom O))
    (gens : Generators),
    Heeds (fun r => r.1 = seen ++ key_values py pairs ∧ r.2 = gens) (key_objections py pairs seen)
      (construct_keys py pairs seen gens)
  | [], seen, gens => .none_ _ ⟨by simp only [key_values, List.append_nil], rfl⟩
  | (.scalar mark tag value, _) :: rest, seen, gens => by
    simp only [construct_keys, construct_object, key_objections, key_values, node_value]
    cases py.scalar tag value with
    | error e => exact .first e _
    | ok key =>
      show Heeds (fun r => r.1 = seen ++ key :: key_values py rest ∧ r.2 = gens)
        (if seen.any (py.same key) then duplicate_key py key mark :: key_objections py rest seen
          else key_objections py rest (seen ++ [key]))
        (if seen.any (py.same key) then .error (duplicate_key py key mark)
          else construct_keys py rest (seen ++ [key]) gens)
      by_cases hdup : seen.any (py.same key) = true
      · rw [if_pos hdup, if_pos hdup]
        exact .first _ _
      · rw [if_neg hdup, if_neg hdup]
        refine (construct_keys_heeds rest (seen ++ [key]) gens).weaken fun r hr => ⟨?_, hr.2⟩
        rw [hr.1, List.append_assoc]
        rfl
  | (.sequence mark items, _) :: rest, seen, gens => .first .type_error _
  | (.mapping mark pairs, _) :: rest, seen, gens => by
    refine (construct_object_heeds (.mapping mark pairs) gens).bind fun r hr => ?_
    obtain ⟨value, gens'⟩ := r
    obtain rfl : value = .dict ((key_values py pairs).zip (item_values py pairs)) :=
      hr.value.trans (by simp only [node_value])
    exact .first .type_error _

theorem construct_values_heeds : ∀ (pairs : List (Node × Node)) (gens : Generators),
    Heeds (fun r => r.1 = item_values py pairs ∧ r.2 = gens ++ values_pending pairs)
      (value_objections py pairs) (construct_values py pairs gens)
  | [], gens => .none_ _ ⟨by simp only [item_values], (List.append_nil gens).symm⟩
  | (_, value_node) :: rest, gens => by
    refine (construct_object_heeds value_node gens).bind fun r hr => ?_
    rw [← List.append_nil (value_objections py rest)]
    refine (construct_values_heeds rest r.2).bind fun values hvalues => .none_ _ ⟨?_, ?_⟩
    · show r.1 :: values.1 = _
      rw [hr.value, hvalues.1]
      simp only [item_values]
    · show values.2 = gens ++ (pending value_node ++ values_pending rest)
      rw [hvalues.2, hr.left, List.append_assoc]

end

theorem construct_items_heeds : ∀ (items : List Node) (gens : Generators),
    Heeds (fun r => r = gens ++ items.flatMap pending) (items.flatMap (objections py))
      (construct_items py items gens) := by
  intro items
  induction items with
  | nil => exact fun gens => .none_ _ (List.append_nil gens).symm
  | cons node rest ih =>
    intro gens
    refine (construct_object_heeds node gens).bind fun r hr => ?_
    refine (ih r.2).weaken fun later h => ?_
    rw [h, hr.left, List.flatMap_cons, List.append_assoc]

theorem run_generators_heeds : ∀ (gens later : Generators),
    Heeds (fun r => r = later ++ gens.flatten.flatMap pending)
      (gens.flatten.flatMap (objections py)) (run_generators py gens later) := by
  intro gens
  induction gens with
  | nil => exact fun later => .none_ _ (List.append_nil later).symm
  | cons items gens ih =>
    intro later
    rw [List.flatten_cons, List.flatMap_append, List.flatMap_append]
    refine (construct_items_heeds items later).bind fun later' h => ?_
    refine (ih later').weaken fun r hr => ?_
    rw [hr, h, List.append_assoc]

theorem deferred_nil : ∀ rounds, deferred py rounds [] = [] := by
  intro rounds
  induction rounds with
  | zero => rfl
  | succ rounds ih => exact ih

theorem drain_heeds : ∀ (rounds : Nat) (gens : Generators),
    Heeds (fun _ => True) (deferred py rounds gens) (drain py rounds gens) := by
  intro rounds
  induction rounds with
  | zero => exact fun _ => .none_ () trivial
  | succ rounds ih =>
    intro gens
    simp only [drain]
    by_cases hgens : gens = []
    · rw [if_pos hgens, hgens, deferred_nil]
      exact .none_ () trivial
    · rw [if_neg hgens]
      refine (run_generators_heeds gens []).bind fun later h => ?_
      rw [h, List.nil_append]
      exact ih _

/-- The loader raises the first thing that can be objected to in the document, and
constructs its value if there is nothing. -/
theorem construct_document_heeds (root : Node) : Heeds (fun data => data = node_value py root)
    (document_objections py root) (construct_document py root) := by
  refine (construct_object_heeds root []).bind fun r hr => ?_
  show Heeds _ _ (drain py (root.nesting + 1) r.2 >>= fun _ => pure r.1)
  rw [hr.left, List.nil_append, ← List.append_nil (deferred py _ _)]
  exact (drain_heeds _ _).bind fun _ _ => .none_ _ hr.value

/-- Every list to be filled has items of less than `n` nested lists. -/
def Shallow (n : Nat) (gens : Generators) : Prop :=
  ∀ items ∈ gens, ∀ node ∈ items, node.nesting < n

theorem nesting_le_items {node : Node} {items : List Node} (h : node ∈ items) :
    node.nesting ≤ items_nesting items := by
  induction items with
  | nil => cases h
  | cons first rest ih =>
    show node.nesting ≤ max first.nesting (items_nesting rest)
    rcases List.mem_cons.mp h with rfl | h
    · exact le_max_left _ _
    · exact (ih h).trans (le_max_right _ _)

mutual

theorem pending_shallow {n : Nat} : ∀ node : Node, node.nesting ≤ n → Shallow n (pending node)
  | .scalar _ _ _, _ => fun _ h => by cases h
  | .sequence _ items, hn => by
    intro items' hitems node hnode
    obtain rfl := List.mem_singleton.mp hitems
    exact lt_of_lt_of_le (Nat.lt_succ_of_le (nesting_le_items hnode)) hn
  | .mapping _ pairs, hn => values_shallow pairs hn

theorem values_shallow {n : Nat} :
    ∀ pairs : List (Node × Node), values_nesting pairs ≤ n → Shallow n (values_pending pairs)
  | [], _ => fun _ h => by cases h
  | (_, value_node) :: rest, hn => by
    have hmax : max value_node.nesting (values_nesting rest) ≤ n := hn
    intro items hitems
    rcases List.mem_append.mp hitems with h | h
    · exact pending_shallow value_node ((le_max_left _ _).trans hmax) items h
    · exact values_shallow rest ((le_max_right _ _).trans hmax) items h

end

theorem Shallow.round {n : Nat} {gens : Generators} (h : Shallow (n + 1) gens) :
    Shallow n (gens.flatten.flatMap pending) := by
  intro items hitems
  obtain ⟨node, hnode, hpending⟩ := List.mem_flatMap.mp hitems
  obtain ⟨items', hitems', hmem⟩ := List.mem_flatten.mp hnode
  exact pending_shallow node (Nat.le_of_lt_succ (h items' hitems' node hmem)) items hpending

theorem drain_nil : ∀ rounds, drain py rounds [] = .ok () := by
  intro rounds
  cases rounds with
  | zero => rfl
  | succ rounds => rfl

/-- One round: it raises, or it goes on with the lists it met. -/
theorem drain_succ (rounds : Nat) (gens : Generators) :
    drain py (rounds + 1) gens = run_generators py gens [] >>= fun later => drain py rounds later := by
  by_cases hgens : gens = []
  · subst hgens
    exact (drain_nil (rounds + 1)).trans (drain_nil rounds).symm
  · exact if_neg hgens

/-- More rounds than the nesting of the root would change nothing. -/
theorem drain_enough (more : Nat) : ∀ (n : Nat) (gens : Generators), Shallow n gens →
    drain py (n + 1 + more) gens = drain py (n + 1) gens := by
  intro n
  induction n with
  | zero =>
    intro gens h
    have hempty : gens.flatten = [] := by
      refine List.flatten_eq_nil_iff.mpr fun items hitems => ?_
      exact List.eq_nil_iff_forall_not_mem.mpr fun node hnode =>
        absurd (h items hitems node hnode) (Nat.not_lt_zero _)
    have hrun := @run_generators_heeds O py gens []
    rw [hempty] at hrun
    rw [show 0 + 1 + more = more + 1 by omega, drain_succ, drain_succ]
    obtain ⟨later, hok, hlater⟩ := hrun.ok_of_none
    rw [hok, hlater]
    show drain py more [] = .ok ()
    exact drain_nil more
  | succ n ih =>
    intro gens h
    have hrun := @run_generators_heeds O py gens []
    rw [show n + 1 + 1 + more = n + 1 + more + 1 by omega, drain_succ, drain_succ (n + 1)]
    cases hok : run_generators py gens [] with
    | error e => rfl
    | ok later =>
      have hlater : later = [] ++ gens.flatten.flatMap pending := hrun.ok hok
      show drain py (n + 1 + more) later = drain py (n + 1) later
      rw [hlater, List.nil_append]
      exact ih _ h.round

theorem construct_document_enough (root : Node) (more : Nat) :
    (do
      let (data, gens) ← construct_object py root []
      drain py (root.nesting + 1 + more) gens
      pure data) = construct_document py root := by
  unfold construct_document
  cases hok : construct_object py root [] with
  | error e => rfl
  | ok r =>
    have hleft : r.2 = [] ++ pending root := ((construct_object_heeds root []).ok hok).left
    show (drain py (root.nesting + 1 + more) r.2 >>= fun _ => pure r.1) =
      drain py (root.nesting + 1) r.2 >>= fun _ => pure r.1
    rw [hleft, List.nil_append, drain_enough more _ _ (pending_shallow root (le_refl _))]

end Order

end IotRobot.Tool
