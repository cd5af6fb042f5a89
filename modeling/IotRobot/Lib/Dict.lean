import Mathlib.Data.List.Basic

/-!
# Dictionaries in insertion order

A Python `dict` as the list of its items: a key that is set again keeps its place.
-/

namespace IotRobot.Lib

set_option autoImplicit false

abbrev Dict (κ β : Type) := List (κ × β)

namespace Dict
variable {κ β : Type} [DecidableEq κ]

def get (d : Dict κ β) (key : κ) : Option β := d.lookup key

def keys (d : Dict κ β) : List κ := d.map Prod.fst

/-- `d[key] = value`. -/
def set : Dict κ β → κ → β → Dict κ β
  | [], key, value => [(key, value)]
  | (k, v) :: d, key, value => if k = key then (k, value) :: d else (k, v) :: set d key value

theorem mem_keys_set (d : Dict κ β) (key k : κ) (value : β) :
    k ∈ (d.set key value).keys ↔ k = key ∨ k ∈ d.keys := by
  induction d with
  | nil => simp [set, keys]
  | cons item d ih =>
    obtain ⟨k', v⟩ := item
    by_cases h : k' = key
    · subst h
      simp [set, keys]
    · have hset : (Dict.set ((k', v) :: d) key value).keys = k' :: (Dict.set d key value).keys := by
        simp [set, h, keys]
      rw [hset, List.mem_cons, ih]
      show k = k' ∨ k = key ∨ k ∈ keys d ↔ k = key ∨ k ∈ k' :: keys d
      rw [List.mem_cons]
      exact or_left_comm

theorem mem_of_get {d : Dict κ β} {key : κ} {value : β} (h : d.get key = some value) :
    (key, value) ∈ d := by
  unfold get at h
  induction d with
  | nil => cases h
  | cons item d ih =>
    obtain ⟨k, v⟩ := item
    rw [List.lookup_cons] at h
    by_cases hk : key = k
    · rw [beq_iff_eq.mpr hk] at h
      cases h
      rw [hk]
      exact List.mem_cons_self
    · rw [beq_eq_false_iff_ne.mpr hk] at h
      exact List.mem_cons_of_mem _ (ih h)

theorem get_set (d : Dict κ β) (key k : κ) (value : β) :
    (d.set key value).get k = if k = key then some value else d.get k := by
  unfold get
  induction d with
  | nil =>
    rw [set, List.lookup_cons, List.lookup_nil]
    by_cases hk : k = key
    · rw [if_pos hk, beq_iff_eq.mpr hk]
    · rw [if_neg hk, beq_eq_false_iff_ne.mpr hk]
  | cons item d ih =>
    obtain ⟨k', v⟩ := item
    by_cases hkey : k' = key
    · subst hkey
      rw [set, if_pos rfl, List.lookup_cons, List.lookup_cons]
      by_cases hk : k = k'
      · rw [if_pos hk, beq_iff_eq.mpr hk]
      · rw [if_neg hk, beq_eq_false_iff_ne.mpr hk]
    · rw [set, if_neg hkey, List.lookup_cons, List.lookup_cons, ih]
      by_cases hk : k = key
      · subst hk
        rw [if_pos rfl, if_pos rfl, beq_eq_false_iff_ne.mpr (Ne.symm hkey)]
      · rw [if_neg hk, if_neg hk]

theorem mem_keys_iff {d : Dict κ β} {key : κ} : key ∈ d.keys ↔ ∃ value, d.get key = some value := by
  unfold get keys
  induction d with
  | nil => simp
  | cons item d ih =>
    obtain ⟨k, v⟩ := item
    rw [List.map_cons, List.mem_cons, ih, List.lookup_cons]
    by_cases hk : key = k
    · simp [hk]
    · rw [beq_eq_false_iff_ne.mpr hk]
      simp [hk]

/-- A key that is set again keeps its place. -/
theorem keys_set {d : Dict κ β} {key : κ} (h : key ∈ d.keys) (value : β) :
    (d.set key value).keys = d.keys := by
  induction d with
  | nil => exact absurd h List.not_mem_nil
  | cons item d ih =>
    obtain ⟨k, v⟩ := item
    by_cases hkey : k = key
    · rw [set, if_pos hkey]
      rfl
    · have hrest : key ∈ keys d := (List.mem_cons.mp h).resolve_left (Ne.symm hkey)
      rw [set, if_neg hkey]
      exact congrArg (List.cons k) (ih hrest)

theorem nodup_keys_set {d : Dict κ β} (h : d.keys.Nodup) (key : κ) (value : β) :
    (d.set key value).keys.Nodup := by
  induction d with
  | nil => exact List.nodup_cons.mpr ⟨List.not_mem_nil, List.nodup_nil⟩
  | cons item d ih =>
    obtain ⟨k, v⟩ := item
    obtain ⟨hfresh, hrest⟩ := List.nodup_cons.mp h
    by_cases hkey : k = key
    · rw [set, if_pos hkey]
      exact h
    · rw [set, if_neg hkey]
      refine List.nodup_cons.mpr ⟨fun hmem => ?_, ih hrest⟩
      rcases (mem_keys_set d key k value).mp hmem with heq | hmem
      · exact hkey heq
      · exact hfresh hmem

theorem set_fresh {d : Dict κ β} {key : κ} (h : key ∉ d.keys) (value : β) :
    d.set key value = d ++ [(key, value)] := by
  induction d with
  | nil => rfl
  | cons item d ih =>
    obtain ⟨k, v⟩ := item
    have hne : k ≠ key := fun heq => h (heq ▸ List.mem_cons_self)
    have hrest : key ∉ keys d := fun hmem => h (List.mem_cons_of_mem _ hmem)
    rw [set, if_neg hne, ih hrest, List.cons_append]

/-- Setting keys that are all new lists them in order. -/
theorem foldl_set_fresh (items : Dict κ β) {d : Dict κ β} (h : (d.keys ++ items.keys).Nodup) :
    items.foldl (fun d item => d.set item.1 item.2) d = d ++ items := by
  induction items generalizing d with
  | nil => exact (List.append_nil d).symm
  | cons item items ih =>
    have hsplit : (d.keys ++ ([item.1] ++ keys items)).Nodup := h
    have hfresh : item.1 ∉ d.keys := fun hmem =>
      (List.nodup_append.mp hsplit).2.2 _ hmem _ (List.mem_append_left _ List.mem_cons_self) rfl
    rw [List.foldl_cons, set_fresh hfresh, ih, List.append_assoc, List.singleton_append]
    rw [keys, List.map_append, List.append_assoc]
    exact hsplit

end Dict

section Lookup
variable {κ β : Type} [BEq κ] [LawfulBEq κ]

/-- With no key twice, the order of the items does not matter. -/
theorem lookup_perm {d d' : Dict κ β} (h : d.Perm d') (hnodup : (d.map Prod.fst).Nodup) (key : κ) :
    d.lookup key = d'.lookup key := by
  induction h with
  | nil => rfl
  | cons item _ ih =>
    obtain ⟨k, v⟩ := item
    rw [List.lookup_cons, List.lookup_cons, ih (List.nodup_cons.mp hnodup).2]
  | swap first second d =>
    obtain ⟨k, v⟩ := first
    obtain ⟨k', v'⟩ := second
    have hne : k' ≠ k := fun h => (List.nodup_cons.mp hnodup).1 (h ▸ List.mem_cons_self)
    simp only [List.lookup_cons]
    by_cases hk : key = k
    · have hk' : (key == k') = false := beq_eq_false_iff_ne.mpr fun h => hne (h.symm.trans hk)
      rw [hk', beq_iff_eq.mpr hk]
    · rw [beq_eq_false_iff_ne.mpr hk]
  | trans hab _ ih₁ ih₂ =>
    exact (ih₁ hnodup).trans (ih₂ ((hab.map Prod.fst).nodup_iff.mp hnodup))

theorem lookup_none {d : Dict κ β} {key : κ} (h : key ∉ d.map Prod.fst) : d.lookup key = none := by
  rw [List.lookup_eq_none_iff]
  intro item hitem
  rw [bne_iff_ne]
  rintro rfl
  exact h (List.mem_map_of_mem hitem)

/-- Items with other keys do not matter. -/
theorem lookup_append_other (d : Dict κ β) {e : Dict κ β} {key : κ} (h : key ∉ e.map Prod.fst) :
    (d ++ e).lookup key = d.lookup key := by
  rw [List.lookup_append, lookup_none h, Option.or_none]

/-- With no key twice, a lookup finds exactly the items. -/
theorem lookup_iff_mem {d : Dict κ β} (hnodup : (d.map Prod.fst).Nodup) {key : κ} {value : β} :
    d.lookup key = some value ↔ (key, value) ∈ d := by
  induction d with
  | nil => exact iff_of_false (fun h => by cases h) List.not_mem_nil
  | cons item d ih =>
    obtain ⟨k, v⟩ := item
    obtain ⟨hfresh, hrest⟩ := List.nodup_cons.mp hnodup
    rw [List.lookup_cons, List.mem_cons, Prod.mk.injEq]
    by_cases hk : key = k
    · subst hk
      rw [beq_self_eq_true, Option.some_inj]
      constructor
      · exact fun h => .inl ⟨rfl, h.symm⟩
      · rintro (⟨-, h⟩ | h)
        · exact h.symm
        · exact absurd (List.mem_map_of_mem h) hfresh
    · rw [beq_eq_false_iff_ne.mpr hk]
      exact (ih hrest).trans ⟨.inr, fun h => h.resolve_left fun h => hk h.1⟩

end Lookup

end IotRobot.Lib
