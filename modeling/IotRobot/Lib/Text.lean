import Mathlib.Data.List.DropRight

/-!
# Stripping and splitting text

`str.strip`, `str.split(None, 1)` and `str.partition` of Python on lists, over any
predicate for what counts as a space. A stripped text has no space at either end, and
every text is its stripped core between two blanks.
-/

namespace IotRobot.Lib

set_option autoImplicit false

section Text
variable {α : Type*} (p : α → Bool)

/-- Nothing but spaces. -/
def Blank (l : List α) : Prop := ∀ x ∈ l, p x = true

/-- `text.strip()`. -/
def strip (l : List α) : List α := (l.dropWhile p).rdropWhile p

/-- `text.split(None, 1)`: the first word, and the rest from the second word on. -/
def split_first (l : List α) : List (List α) :=
  let l := l.dropWhile p
  let word := l.takeWhile fun x => !p x
  let rest := (l.dropWhile fun x => !p x).dropWhile p
  if l = [] then [] else if rest = [] then [word] else [word, rest]

/-- `text.partition(sep)`: what is before the first `sep`, whether there is one, and what is
after it. -/
def partition_at [DecidableEq α] (sep : α) (l : List α) : List α × Bool × List α :=
  match l.dropWhile fun x => x ≠ sep with
  | [] => (l, false, [])
  | _ :: after => (l.takeWhile fun x => x ≠ sep, true, after)

variable {p} {a b l m : List α} {x : α}

theorem Blank.nil : Blank p ([] : List α) := fun _ h => absurd h List.not_mem_nil

theorem Blank.append (ha : Blank p a) (hb : Blank p b) : Blank p (a ++ b) := by
  intro x hx
  rcases List.mem_append.mp hx with h | h
  · exact ha x h
  · exact hb x h

theorem Blank.dropWhile (ha : Blank p a) : a.dropWhile p = [] :=
  List.dropWhile_eq_nil_iff.mpr ha

theorem dropWhile_blank (ha : Blank p a) : (a ++ l).dropWhile p = l.dropWhile p :=
  List.dropWhile_append_of_pos ha

theorem dropWhile_cons_neg (hx : p x = false) : (x :: l).dropWhile p = x :: l :=
  List.dropWhile_cons_of_neg (by rw [hx]; exact Bool.false_ne_true)

/-- The text does not go on with a space. -/
def StopsAt (p : α → Bool) (l : List α) : Prop := ∀ x, l.head? = some x → p x = false

theorem StopsAt.nil : StopsAt p ([] : List α) := fun _ h => by cases h

theorem StopsAt.cons (hx : p x = false) : StopsAt p (x :: l) := by
  rintro y ⟨⟩
  exact hx

theorem dropWhile_stops (ha : Blank p a) (hl : StopsAt p l) : (a ++ l).dropWhile p = l := by
  rw [dropWhile_blank ha]
  cases l with
  | nil => rfl
  | cons x l => exact dropWhile_cons_neg (hl x rfl)

theorem takeWhile_stops (ha : Blank p a) (hl : StopsAt p l) : (a ++ l).takeWhile p = a := by
  rw [List.takeWhile_append_of_pos ha]
  cases l with
  | nil => exact List.append_nil a
  | cons x l => rw [List.takeWhile_cons_of_neg (by rw [hl x rfl]; exact Bool.false_ne_true), List.append_nil]

theorem rdropWhile_blank (hb : Blank p b) : (l ++ b).rdropWhile p = l.rdropWhile p := by
  unfold List.rdropWhile
  rw [List.reverse_append, dropWhile_blank]
  intro x hx
  exact hb x (List.mem_reverse.mp hx)

/-- Spaces at the end are dropped behind the first other character. -/
theorem rdropWhile_cons (hx : p x = false) : (x :: l).rdropWhile p = x :: l.rdropWhile p := by
  unfold List.rdropWhile
  rw [List.reverse_cons, List.dropWhile_append]
  cases h : l.reverse.dropWhile p with
  | nil =>
    rw [List.isEmpty_nil, if_pos rfl, dropWhile_cons_neg hx]
    rfl
  | cons y r =>
    rw [List.isEmpty_cons, if_neg Bool.false_ne_true, List.reverse_append]
    rfl

/-- ... wherever it stands. -/
theorem rdropWhile_append_cons (l : List α) (hx : p x = false) :
    (l ++ x :: m).rdropWhile p = l ++ x :: m.rdropWhile p := by
  have hm : (m.reverse ++ [x]).dropWhile p = (m.rdropWhile p).reverse ++ [x] := by
    have h := congrArg List.reverse (rdropWhile_cons (l := m) hx)
    unfold List.rdropWhile at h
    rw [List.reverse_reverse, List.reverse_cons, List.reverse_cons] at h
    exact h
  unfold List.rdropWhile
  rw [List.reverse_append, List.reverse_cons, List.dropWhile_append, hm, if_neg]
  · rw [List.reverse_append, List.reverse_append, List.reverse_reverse, List.reverse_reverse]
    rfl
  · rw [List.isEmpty_iff]
    exact List.append_ne_nil_of_right_ne_nil _ (List.cons_ne_nil _ _)

theorem strip_blank_append (ha : Blank p a) : strip p (a ++ l) = strip p l := by
  unfold strip
  rw [dropWhile_blank ha]

theorem strip_cons (hx : p x = false) : strip p (x :: l) = x :: l.rdropWhile p := by
  unfold strip
  rw [dropWhile_cons_neg hx, rdropWhile_cons hx]

theorem rdropWhile_split (p : α → Bool) (l : List α) :
    ∃ b, Blank p b ∧ l = l.rdropWhile p ++ b :=
  ⟨l.rtakeWhile p, fun _ h => List.mem_rtakeWhile_imp h, List.rdropWhile_append_rtakeWhile.symm⟩

theorem dropWhile_split (p : α → Bool) (l : List α) :
    ∃ a, Blank p a ∧ l = a ++ l.dropWhile p :=
  ⟨l.takeWhile p, fun _ h => List.mem_takeWhile_imp h, List.takeWhile_append_dropWhile.symm⟩

/-- Every text is its stripped core between two blanks. -/
theorem strip_split (p : α → Bool) (l : List α) :
    ∃ a b, Blank p a ∧ Blank p b ∧ l = a ++ (strip p l ++ b) := by
  obtain ⟨a, ha, hl⟩ := dropWhile_split p l
  obtain ⟨b, hb, hd⟩ := rdropWhile_split p (l.dropWhile p)
  exact ⟨a, b, ha, hb, by rw [strip, ← hd, ← hl]⟩

theorem head_dropWhile (h : l.dropWhile p = x :: m) : p x = false := by
  have hne : l.dropWhile p ≠ [] := by
    rw [h]
    exact List.cons_ne_nil _ _
  have hhead := List.head_dropWhile_not p hne
  simpa only [h, List.head_cons] using hhead

/-- The longest part at the start that satisfies a predicate. -/
theorem takeWhile_eq_iff : l.takeWhile p = a ↔ ∃ b, l = a ++ b ∧ Blank p a ∧ StopsAt p b := by
  constructor
  · rintro rfl
    refine ⟨l.dropWhile p, List.takeWhile_append_dropWhile.symm, fun _ h => List.mem_takeWhile_imp h, ?_⟩
    intro x hx
    obtain ⟨m, hm⟩ := List.head?_eq_some_iff.mp hx
    exact head_dropWhile hm
  · rintro ⟨b, rfl, ha, hb⟩
    exact takeWhile_stops ha hb

/-- ... and at the end. -/
theorem rtakeWhile_eq_iff : l.rtakeWhile p = a ↔ ∃ b, l = b ++ a ∧ Blank p a ∧ StopsAt p b.reverse := by
  have hblank (m : List α) : Blank p m.reverse ↔ Blank p m :=
    ⟨fun h x hx => h x (List.mem_reverse.mpr hx), fun h x hx => h x (List.mem_reverse.mp hx)⟩
  unfold List.rtakeWhile
  rw [← List.reverse_inj, List.reverse_reverse, takeWhile_eq_iff]
  constructor
  · rintro ⟨b, hl, ha, hb⟩
    refine ⟨b.reverse, ?_, (hblank a).mp ha, ?_⟩
    · rw [← List.reverse_inj, hl, List.reverse_append, List.reverse_reverse]
    · rwa [List.reverse_reverse]
  · rintro ⟨b, rfl, ha, hb⟩
    exact ⟨b.reverse, List.reverse_append, (hblank a).mpr ha, hb⟩

theorem mem_of_mem_strip (h : x ∈ strip p l) : x ∈ l := by
  obtain ⟨a, b, -, -, hl⟩ := strip_split p l
  rw [hl]
  exact List.mem_append_right a (List.mem_append_left b h)

/-- A stripped text starts with no space. -/
theorem strip_head (h : strip p l = x :: m) : p x = false := by
  unfold strip at h
  cases hd : l.dropWhile p with
  | nil =>
    rw [hd] at h
    cases h
  | cons y r =>
    have hy := head_dropWhile hd
    rw [hd, rdropWhile_cons hy] at h
    exact (List.cons.inj h).1 ▸ hy

theorem strip_strip (p : α → Bool) (l : List α) : strip p (strip p l) = strip p l := by
  cases h : strip p l with
  | nil => rfl
  | cons x m =>
    rw [strip_cons (strip_head h)]
    have hl : (strip p l).rdropWhile p = strip p l := List.rdropWhile_idempotent p _
    rwa [h, rdropWhile_cons (strip_head h)] at hl

theorem strip_append_blank (hb : Blank p b) : strip p (l ++ b) = strip p l := by
  unfold strip
  rw [List.dropWhile_append]
  by_cases hl : (l.dropWhile p).isEmpty = true
  · rw [if_pos hl, hb.dropWhile, List.isEmpty_iff.mp hl]
  · rw [if_neg hl, rdropWhile_blank hb]

/-- A text without spaces is stripped. -/
theorem strip_of_no_space (h : ∀ x ∈ l, p x = false) : strip p l = l := by
  unfold strip
  have hdrop : l.dropWhile p = l := by
    cases l with
    | nil => rfl
    | cons x l => exact dropWhile_cons_neg (h x List.mem_cons_self)
  have hrdrop : l.reverse.dropWhile p = l.reverse := by
    cases hl : l.reverse with
    | nil => rfl
    | cons x r => exact dropWhile_cons_neg (h x (List.mem_reverse.mp (hl ▸ List.mem_cons_self)))
  rw [hdrop, List.rdropWhile, hrdrop, List.reverse_reverse]

/-- Two words between spaces split into the first and the rest. -/
theorem split_first_words {word gap : List α} (ha : Blank p a)
    (hword : ∀ y ∈ word, p y = false) (hne : word ≠ []) (hgap : Blank p gap) (hgne : gap ≠ [])
    (hx : p x = false) :
    split_first p (a ++ (word ++ (gap ++ x :: m))) = [word, x :: m] := by
  have hdrop : ∀ r, (a ++ (word ++ r)).dropWhile p = word ++ r := by
    intro r
    obtain ⟨w, ws, rfl⟩ := List.exists_cons_of_ne_nil hne
    rw [dropWhile_blank ha, List.cons_append, dropWhile_cons_neg (hword w List.mem_cons_self)]
  have hnot : ∀ y ∈ word, (!p y) = true := fun y hy => by rw [hword y hy]; rfl
  -- the first word ends at the gap
  have hstop : ∀ r, (gap ++ r).takeWhile (fun y => !p y) = [] ∧
      (gap ++ r).dropWhile (fun y => !p y) = gap ++ r := by
    intro r
    obtain ⟨g, gs, rfl⟩ := List.exists_cons_of_ne_nil hgne
    have hg := hgap g List.mem_cons_self
    simp [hg]
  unfold split_first
  simp only [hdrop, List.takeWhile_append_of_pos hnot, List.dropWhile_append_of_pos hnot,
    (hstop _).1, (hstop _).2, dropWhile_blank hgap, dropWhile_cons_neg hx, List.append_nil]
  rw [if_neg (List.append_ne_nil_of_left_ne_nil hne _), if_neg (List.cons_ne_nil _ _)]

/-- What splits into a first word and a rest is two words between spaces. -/
theorem words_of_split_first {word rest : List α} (h : split_first p l = [word, rest]) :
    ∃ a gap x m, Blank p a ∧ (∀ y ∈ word, p y = false) ∧ Blank p gap ∧ gap ≠ [] ∧
      p x = false ∧ rest = x :: m ∧ l = a ++ (word ++ (gap ++ rest)) := by
  unfold split_first at h
  dsimp only at h
  by_cases hl : l.dropWhile p = []
  · rw [if_pos hl] at h
    cases h
  rw [if_neg hl] at h
  by_cases hr : ((l.dropWhile p).dropWhile fun x => !p x).dropWhile p = []
  · rw [if_pos hr] at h
    cases h
  rw [if_neg hr] at h
  obtain ⟨hword, hrest⟩ := List.cons.inj h
  obtain ⟨hrest, -⟩ := List.cons.inj hrest
  obtain ⟨a, ha, hal⟩ := dropWhile_split p l
  obtain ⟨gap, hgap, hg⟩ := dropWhile_split p ((l.dropWhile p).dropWhile fun x => !p x)
  have hsplit := List.takeWhile_append_dropWhile (p := fun x => !p x) (l := l.dropWhile p)
  rw [hrest] at hg
  rw [hword] at hsplit
  obtain ⟨x, m, hxm⟩ := List.exists_cons_of_ne_nil (hrest ▸ hr)
  have hx : p x = false := head_dropWhile (hrest.trans hxm)
  refine ⟨a, gap, x, m, ha, fun y hy => ?_, hgap, ?_, hx, hxm, ?_⟩
  · rw [← hword] at hy
    have hy' := List.mem_takeWhile_imp hy
    simpa only [Bool.not_eq_true'] using hy'
  · -- without a gap the rest would go on with the first word
    rintro rfl
    rw [hxm, List.nil_append] at hg
    have hstop := head_dropWhile hg
    rw [hx] at hstop
    cases hstop
  · rw [← hg, hsplit, ← hal]

variable [DecidableEq α] {sep : α} {fields : List (List α)}

theorem partition_at_cons (hkey : sep ∉ l) : partition_at sep (l ++ sep :: m) = (l, true, m) := by
  have hpos : ∀ y ∈ l, decide (y ≠ sep) = true := fun y hy =>
    decide_eq_true fun h => hkey (h ▸ hy)
  unfold partition_at
  rw [List.dropWhile_append_of_pos hpos, List.takeWhile_append_of_pos hpos,
    List.dropWhile_cons_of_neg (by simp), List.takeWhile_cons_of_neg (by simp), List.append_nil]

theorem partition_at_none (hkey : sep ∉ l) : partition_at sep l = (l, false, []) := by
  have hpos : ∀ y ∈ l, decide (y ≠ sep) = true := fun y hy =>
    decide_eq_true fun h => hkey (h ▸ hy)
  unfold partition_at
  rw [List.dropWhile_eq_nil_iff.mpr hpos]

/-- A text has no separator, or it is the two parts around the first one. -/
theorem partition_at_cases (sep : α) (l : List α) :
    sep ∉ l ∨ ∃ key value, sep ∉ key ∧ l = key ++ sep :: value := by
  by_cases h : sep ∈ l
  · obtain ⟨key, value, rfl, hkey⟩ := List.eq_append_cons_of_mem h
    exact .inr ⟨key, value, hkey, rfl⟩
  · exact .inl h

/-- What is before the first separator. -/
theorem partition_at_fst_iff : (partition_at sep l).1 = a ↔
    sep ∉ a ∧ ∃ b, l = a ++ b ∧ (b = [] ∨ ∃ c, b = sep :: c) := by
  constructor
  · rintro rfl
    rcases partition_at_cases sep l with hnone | ⟨key, value, hkey, rfl⟩
    · rw [partition_at_none hnone]
      exact ⟨hnone, [], (List.append_nil l).symm, .inl rfl⟩
    · rw [partition_at_cons hkey]
      exact ⟨hkey, _, rfl, .inr ⟨value, rfl⟩⟩
  · rintro ⟨ha, b, rfl, rfl | ⟨c, rfl⟩⟩
    · rw [List.append_nil, partition_at_none ha]
    · rw [partition_at_cons ha]

/-- No field has a separator in it. -/
theorem not_mem_of_mem_splitOn (h : m ∈ l.splitOn sep) : sep ∉ m := by
  induction l generalizing m with
  | nil =>
    rw [List.splitOn_nil] at h
    rw [List.mem_singleton.mp h]
    exact List.not_mem_nil
  | cons x l ih =>
    rw [List.splitOn_cons_eq_if_modifyHead] at h
    by_cases hx : x = sep
    · rw [if_pos (beq_iff_eq.mpr hx)] at h
      rcases List.mem_cons.mp h with rfl | h
      · exact List.not_mem_nil
      · exact ih h
    · rw [if_neg (by simpa using hx)] at h
      obtain ⟨first, rest, hsplit⟩ := List.exists_cons_of_ne_nil (List.splitOn_ne_nil sep l)
      rw [hsplit, List.modifyHead_cons] at h
      have hfield : ∀ g ∈ first :: rest, sep ∉ g := fun g hg => ih (hsplit ▸ hg)
      rcases List.mem_cons.mp h with rfl | h
      · rw [List.mem_cons, not_or]
        exact ⟨fun he => hx he.symm, hfield first List.mem_cons_self⟩
      · exact hfield m (List.mem_cons_of_mem _ h)

omit [DecidableEq α] in
theorem intercalate_append_last (fields : List (List α)) (l b : List α) :
    [sep].intercalate (fields ++ [l ++ b]) = [sep].intercalate (fields ++ [l]) ++ b := by
  induction fields with
  | nil => simp
  | cons first fields ih =>
    rw [List.cons_append, List.cons_append, List.intercalate_cons_of_ne_nil (by simp),
      List.intercalate_cons_of_ne_nil (by simp), ih]
    simp

/-- What is put behind a text without a separator goes into its last field. -/
theorem splitOn_append_right (hb : sep ∉ b) (l : List α) :
    ∃ fields last, l.splitOn sep = fields ++ [last] ∧
      (l ++ b).splitOn sep = fields ++ [last ++ b] := by
  have hne := List.splitOn_ne_nil sep l
  have hsplit := List.dropLast_append_getLast hne
  refine ⟨_, _, hsplit.symm, ?_⟩
  have hfields : ∀ f ∈ (l.splitOn sep).dropLast ++ [(l.splitOn sep).getLast hne ++ b],
      sep ∉ f := by
    intro f hf
    rcases List.mem_append.mp hf with hf | hf
    · exact not_mem_of_mem_splitOn (List.dropLast_subset _ hf)
    · rw [List.mem_singleton.mp hf, List.mem_append, not_or]
      exact ⟨not_mem_of_mem_splitOn (List.getLast_mem hne), hb⟩
  have hjoin : l ++ b =
      [sep].intercalate ((l.splitOn sep).dropLast ++ [(l.splitOn sep).getLast hne ++ b]) := by
    rw [intercalate_append_last, hsplit, List.intercalate_splitOn]
  rw [hjoin]
  exact List.splitOn_intercalate sep hfields (by simp)

/-- What is put in front goes into the first one. -/
theorem splitOn_append_left (ha : sep ∉ a) (l : List α) :
    ∃ first fields, l.splitOn sep = first :: fields ∧
      (a ++ l).splitOn sep = (a ++ first) :: fields := by
  obtain ⟨first, fields, hsplit⟩ := List.exists_cons_of_ne_nil (List.splitOn_ne_nil sep l)
  refine ⟨first, fields, hsplit, ?_⟩
  have hmem : ∀ f ∈ first :: fields, sep ∉ f := fun f hf => not_mem_of_mem_splitOn (hsplit ▸ hf)
  have hjoin : a ++ l = [sep].intercalate ((a ++ first) :: fields) := by
    have hl : l = [sep].intercalate (first :: fields) := by
      rw [← hsplit, List.intercalate_splitOn]
    rw [hl]
    cases fields <;> simp
  rw [hjoin]
  apply List.splitOn_intercalate
  · intro f hf
    rcases List.mem_cons.mp hf with rfl | hf
    · rw [List.mem_append, not_or]
      exact ⟨ha, hmem first List.mem_cons_self⟩
    · exact hmem f (List.mem_cons_of_mem _ hf)
  · exact List.cons_ne_nil _ _

end Text

end IotRobot.Lib
