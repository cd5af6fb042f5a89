import Mathlib.Data.List.Chain
import Mathlib.Tactic.TypeStar

/-!
# Streaks that a pause may break

In a stream of items some carry on a streak (`p`); any other one breaks it if it `ends` the
latest item that carried it on. Items that carry on are never asked how far they lie from the
previous one, so what holds between neighbours of a streak has to be asked of the stream.
-/

namespace IotRobot.Lib

set_option autoImplicit false

variable {α : Type*} (p : α → Bool) (ends : α → α → Prop)

/-- `Streak p ends items last`: the items from the first of a streak on, none of which broke
it. `last` is the latest one that carried it on. -/
inductive Streak : List α → α → Prop
  | first {a : α} (ha : p a = true) : Streak [a] a
  | pause {items : List α} {a b : α} (h : Streak items a) (hb : p b = false) (hend : ¬ ends a b) :
      Streak (items ++ [b]) a
  | again {items : List α} {a b : α} (h : Streak items a) (hb : p b = true) :
      Streak (items ++ [b]) b

/-- Of two items that carry on, with none between, either `R` holds or one between breaks the
streak. -/
def Linked (R : α → α → Prop) (items : List α) : Prop :=
  ∀ before a between b after, items = before ++ a :: (between ++ b :: after) →
    p a = true → p b = true → (∀ c ∈ between, p c = false) → R a b ∨ ∃ c ∈ between, ends a c

variable {p ends} {R : α → α → Prop} {items before : List α} {a : α}

theorem Linked.suffix (h : Linked p ends R (before ++ items)) : Linked p ends R items := by
  rintro front a between b after rfl
  apply h (before ++ front) a between b after
  rw [List.append_assoc]

theorem Linked.front {after : List α} (h : Linked p ends R (items ++ after)) :
    Linked p ends R items := by
  rintro front a between b rest rfl
  apply h front a between b (rest ++ after)
  rw [List.append_assoc, List.cons_append, List.append_assoc, List.cons_append]

/-- Where every item carries on, the neighbours are linked. -/
theorem Linked.of_isChain (h : items.IsChain R) (hall : ∀ a ∈ items, p a = true) :
    Linked p ends R items := by
  rintro front a between b after rfl - - hnone
  have hbetween : between = [] := by
    cases between with
    | nil => rfl
    | cons d between =>
      have hd := hall d (by simp)
      rw [hnone d List.mem_cons_self] at hd
      cases hd
  rw [hbetween, List.nil_append] at h
  have hpair := (List.isChain_append.mp h).2.1
  exact .inl (List.isChain_cons_cons.mp hpair).1

namespace Streak

/-- After the latest item that carried on there are pauses that did not break the streak. -/
theorem parts (h : Streak p ends items a) : p a = true ∧ ∃ before after,
    items = before ++ a :: after ∧ ∀ c ∈ after, p c = false ∧ ¬ ends a c := by
  induction h with
  | first ha => exact ⟨ha, [], [], rfl, fun c hc => absurd hc List.not_mem_nil⟩
  | pause _ hb hend ih =>
    obtain ⟨ha, before, after, rfl, hafter⟩ := ih
    refine ⟨ha, before, after ++ [_], by rw [List.append_assoc, List.cons_append], ?_⟩
    intro c hc
    rcases List.mem_append.mp hc with hold | hnew
    · exact hafter c hold
    · rw [List.mem_singleton.mp hnew]
      exact ⟨hb, hend⟩
  | again _ hb _ => exact ⟨hb, _, [], rfl, fun c hc => absurd hc List.not_mem_nil⟩

theorem getLast?_filter (h : Streak p ends items a) : (items.filter p).getLast? = some a := by
  obtain ⟨ha, before, after, rfl, hafter⟩ := h.parts
  have hnone : after.filter p = [] :=
    List.filter_eq_nil_iff.mpr fun c hc hp => by
      rw [(hafter c hc).1] at hp
      cases hp
  rw [List.filter_append, List.filter_cons_of_pos ha, hnone, List.getLast?_append, List.getLast?_singleton,
    Option.some_or]

/-- The first item carried the streak on. -/
theorem head_filter (h : Streak p ends items a) :
    ∃ first, items.head? = some first ∧ (items.filter p).head? = some first := by
  induction h with
  | @first a ha => exact ⟨a, rfl, by rw [List.filter_cons_of_pos ha, List.head?_cons]⟩
  | pause _ _ _ ih | again _ _ ih =>
    obtain ⟨first, hitems, hfilter⟩ := ih
    refine ⟨first, ?_, ?_⟩
    · rw [List.head?_append, hitems, Option.some_or]
    · rw [List.filter_append, List.head?_append, hfilter, Option.some_or]

/-- What links the items that carry on links the streak. -/
theorem chain (h : Streak p ends items a) (hlinked : Linked p ends R items) :
    (items.filter p).IsChain R := by
  induction h with
  | first ha =>
    rw [List.filter_cons_of_pos ha]
    exact List.isChain_singleton _
  | pause h hb _ ih =>
    rw [List.filter_append, List.filter_cons_of_neg (by rw [hb]; exact Bool.false_ne_true),
      List.filter_nil, List.append_nil]
    exact ih hlinked.front
  | @again items a b h hb ih =>
    obtain ⟨ha, before, after, hitems, hafter⟩ := h.parts
    -- nothing between the two broke the streak
    have hab : R a b := by
      have hlink := hlinked before a after b [] (by rw [hitems, List.append_assoc, List.cons_append])
        ha hb fun c hc => (hafter c hc).1
      rcases hlink with hR | ⟨c, hc, hend⟩
      · exact hR
      · exact absurd hend (hafter c hc).2
    rw [List.filter_append, List.filter_cons_of_pos hb, List.filter_nil]
    rw [List.isChain_append]
    refine ⟨ih hlinked.front, List.isChain_singleton _, ?_⟩
    intro x hx y hy
    rw [h.getLast?_filter] at hx
    rw [← Option.some.inj hx, ← Option.some.inj hy]
    exact hab

end Streak

/-- In a chain of equal values every member has the value of the first. -/
theorem chain_eq_head {β : Type*} {f : α → β} {first x : α} (h : (first :: items).IsChain fun a b => f a = f b)
    (hx : x ∈ first :: items) : f x = f first := by
  induction items generalizing first with
  | nil => rw [List.mem_singleton.mp hx]
  | cons second items ih =>
    obtain ⟨heq, hrest⟩ := List.isChain_cons_cons.mp h
    rcases List.mem_cons.mp hx with rfl | hmem
    · rfl
    · exact (ih hrest hmem).trans heq.symm

end IotRobot.Lib
