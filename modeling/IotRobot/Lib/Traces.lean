import Mathlib.Data.List.Basic
import Mathlib.Data.List.DropRight
import Mathlib.Data.List.Forall2
import Mathlib.Tactic.TypeStar

/-!
# Events in view of what came before

`Throughout P t` says that every event of the trace `t` has `P` of the events
before it and itself. Traces are oldest first and grow at their end. The streak of `P` at the end
of a trace is what a latch that is reset by every event without `P` can know of it. A
program that gives up at a failure attempts a list up to there.
-/

namespace IotRobot.Lib

set_option autoImplicit false

variable {α : Type*}

def Throughout (P : List α → α → Prop) (t : List α) : Prop :=
  ∀ before e after, t = before ++ e :: after → P before e

variable {P : List α → α → Prop} {t u : List α} {e : α}

theorem throughout_nil : Throughout P [] := by
  intro before e after h
  simp at h

/-- An event of `t ++ u` belongs to `t`, or it comes after all of `t`. -/
theorem split_append {before after : List α} (h : t ++ u = before ++ e :: after) :
    (∃ rest, t = before ++ e :: rest) ∨ ∃ more, before = t ++ more ∧ u = more ++ e :: after := by
  rcases List.append_eq_append_iff.mp h with ⟨more, hbefore, hu⟩ | ⟨rest, ht, hrest⟩
  · exact .inr ⟨more, hbefore, hu⟩
  · cases rest with
    | nil => exact .inr ⟨[], by rw [ht]; simp, by simpa using hrest.symm⟩
    | cons x rest =>
      obtain ⟨rfl, -⟩ := List.cons.inj hrest
      exact .inl ⟨rest, ht⟩

/-- An event of `t ++ [x]` is an event of `t`, or it is `x`. -/
theorem split_snoc {before after : List α} {x : α} (h : t ++ [x] = before ++ e :: after) :
    (∃ rest, t = before ++ e :: rest ∧ after = rest ++ [x]) ∨ e = x ∧ before = t ∧ after = [] := by
  rcases List.eq_nil_or_concat after with rfl | ⟨rest, last, rfl⟩
  · obtain ⟨rfl, hx⟩ := List.append_inj' h rfl
    injection hx with hx
    exact .inr ⟨hx.symm, rfl, rfl⟩
  · have h : t ++ [x] = (before ++ e :: rest) ++ [last] := by simpa using h
    obtain ⟨rfl, hx⟩ := List.append_inj' h rfl
    injection hx with hx
    exact .inl ⟨rest, rfl, by rw [hx]; exact List.concat_eq_append⟩

/-- A trace related to one that ends in `e` ends in an event related to `e`. -/
theorem forall₂_snoc_left {β : Type*} {R : α → β → Prop} {v : List β}
    (h : List.Forall₂ R (t ++ [e]) v) :
    ∃ before last, v = before ++ [last] ∧ List.Forall₂ R t before ∧ R e last := by
  induction t generalizing v with
  | nil =>
    obtain ⟨last, rest, he, hrest, rfl⟩ := List.forall₂_cons_left_iff.mp h
    cases hrest
    exact ⟨[], last, rfl, .nil, he⟩
  | cons x t ih =>
    obtain ⟨y, rest, hx, hrest, rfl⟩ := List.forall₂_cons_left_iff.mp h
    obtain ⟨before, last, rfl, hbefore, he⟩ := ih hrest
    exact ⟨y :: before, last, rfl, .cons hx hbefore, he⟩

theorem Throughout.append (ht : Throughout P t)
    (hu : ∀ before e after, u = before ++ e :: after → P (t ++ before) e) :
    Throughout P (t ++ u) := by
  intro before e after h
  rcases split_append h with ⟨rest, ht'⟩ | ⟨more, rfl, hu'⟩
  · exact ht before e rest ht'
  · exact hu more e after hu'

theorem Throughout.snoc (ht : Throughout P t) (he : P t e) : Throughout P (t ++ [e]) := by
  refine ht.append fun before x after h => ?_
  cases before with
  | nil =>
    obtain ⟨rfl, -⟩ := List.cons.inj h
    rwa [List.append_nil]
  | cons y before => simp at h

section Streaks
variable {p : α → Bool} {l after : List α} {x first : α}

/-- Everything from some event on has `p`: that event belongs to the streak at the end. -/
theorem suffix_streak (before : List α) (h : ∀ y ∈ after, p y) : after <:+ (before ++ after).rtakeWhile p := by
  induction after using List.reverseRecOn with
  | nil => exact List.nil_suffix
  | append_singleton rest x ih =>
    have hrest : ∀ y ∈ rest, p y := fun y hy => h y (List.mem_append_left _ hy)
    have hx : p x := h x (List.mem_append_right _ (List.mem_singleton_self x))
    obtain ⟨more, hmore⟩ := ih hrest
    rw [← List.append_assoc, List.rtakeWhile_concat_pos p _ x hx]
    exact ⟨more, by rw [← List.append_assoc, hmore]⟩

/-- The streak at the end that began before `x` reaches back to an event with `Q`, where
earlier events have `Q` if later ones do: its first event has `Q`. -/
theorem streak_reaches_iff {Q : α → Prop} (hQ : l.Pairwise fun a b => Q b → Q a) :
    (∃ before first between, l ++ [x] = before ++ first :: (between ++ [x]) ∧
      (∀ y ∈ first :: (between ++ [x]), p y) ∧ Q first) ↔
    p x ∧ ∃ first, (l.rtakeWhile p).head? = some first ∧ Q first := by
  constructor
  · rintro ⟨before, first, between, hl, hall, hq⟩
    have hp : ∀ y ∈ first :: between, p y := fun y hy =>
      hall y (by simpa using List.mem_append_left [x] hy)
    obtain rfl : l = before ++ first :: between := by
      have h : l ++ [x] = (before ++ first :: between) ++ [x] := by simpa using hl
      exact List.append_cancel_right h
    have hx : p x := hall x (by simp)
    refine ⟨hx, ?_⟩
    obtain ⟨more, hmore⟩ := suffix_streak before hp
    cases more with
    | nil => exact ⟨first, by rw [← hmore]; rfl, hq⟩
    | cons head more =>
      refine ⟨head, by rw [← hmore]; rfl, ?_⟩
      -- the streak began earlier still, with an event that has `Q` because `first` has
      have hpair := hQ.sublist (List.rtakeWhile_suffix p _).sublist
      rw [← hmore, List.cons_append, List.pairwise_cons] at hpair
      exact hpair.1 first (by simp) hq
  · rintro ⟨hx, first, hhead, hq⟩
    obtain ⟨between, hstreak⟩ : ∃ between, l.rtakeWhile p = first :: between := by
      cases hs : l.rtakeWhile p with
      | nil => rw [hs] at hhead; cases hhead
      | cons y between =>
        rw [hs] at hhead
        exact ⟨between, by rw [Option.some.inj hhead]⟩
    obtain ⟨before, hl⟩ := List.rtakeWhile_suffix p l
    rw [hstreak] at hl
    refine ⟨before, first, between, by rw [← hl]; simp, fun y hy => ?_, hq⟩
    rw [← List.cons_append] at hy
    rcases List.mem_append.mp hy with hy | hy
    · exact List.mem_rtakeWhile_imp (p := p) (l := l) (hstreak ▸ hy)
    · rw [List.mem_singleton.mp hy]
      exact hx

end Streaks

section Attempts

/-- The attempts up to the first one that fails, this one included; `ok k` says whether
attempt `k` succeeds. -/
def attempted (ok : Nat → Bool) : List α → List α
  | [] => []
  | x :: l => x :: if ok 0 then attempted (fun k => ok (k + 1)) l else []

/-- After attempts that succeed the list goes on. -/
theorem attempted_append (l m : List α) (ok : Nat → Bool) (h : ∀ k < l.length, ok k = true) :
    attempted ok (l ++ m) = l ++ attempted (fun k => ok (l.length + k)) m := by
  induction l generalizing ok with
  | nil => simp
  | cons x l ih =>
    have hfirst : ok 0 = true := h 0 (Nat.succ_pos _)
    have hrest := ih (fun k => ok (k + 1)) fun k hk => h (k + 1) (Nat.succ_lt_succ hk)
    simp only [List.cons_append, attempted, hfirst, if_true, hrest, List.length_cons]
    simp only [Nat.add_right_comm _ 1]

/-- Behind a failed attempt nothing is attempted. -/
theorem attempted_append_failed (l m : List α) (ok : Nat → Bool)
    (h : ∃ k < l.length, ok k = false) : attempted ok (l ++ m) = attempted ok l := by
  induction l generalizing ok with
  | nil =>
    obtain ⟨k, hk, -⟩ := h
    exact absurd hk (Nat.not_lt_zero k)
  | cons x l ih =>
    obtain ⟨k, hk, hfails⟩ := h
    cases k with
    | zero => simp [attempted, hfails]
    | succ k =>
      rw [List.cons_append, attempted, attempted,
        ih (fun k => ok (k + 1)) ⟨k, Nat.lt_of_succ_lt_succ hk, hfails⟩]

/-- Everything is attempted exactly when no attempt before the last one fails. -/
theorem attempted_eq_iff (l : List α) (ok : Nat → Bool) :
    attempted ok l = l ↔ ∀ k, k + 1 < l.length → ok k = true := by
  induction l generalizing ok with
  | nil => simp [attempted]
  | cons x l ih =>
    rw [attempted, List.cons.injEq]
    cases hfirst : ok 0 with
    | true =>
      rw [if_pos rfl, ih]
      constructor
      · rintro ⟨-, h⟩ k hk
        cases k with
        | zero => exact hfirst
        | succ k => exact h k (Nat.lt_of_succ_lt_succ hk)
      · exact fun h => ⟨rfl, fun k hk => h (k + 1) (Nat.succ_lt_succ hk)⟩
    | false =>
      rw [if_neg (by decide)]
      cases l with
      | nil => simp
      | cons y l =>
        constructor
        · rintro ⟨-, h⟩
          cases h
        · intro h
          have hok := h 0 (by simp)
          rw [hfirst] at hok
          cases hok

end Attempts

end IotRobot.Lib
