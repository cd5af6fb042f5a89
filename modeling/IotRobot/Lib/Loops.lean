import Mathlib.Data.List.FinRange
import Mathlib.Order.Monotone.Basic
import Mathlib.Tactic.TypeStar

/-!
# Loops: polling under a steady clock, and sweeps over the parts of a state

A steady clock is a sequence of readings, one for each time a program looks at
it. The readings never go back and pass every instant; `reach` says from which
reading on. A `while (true)` loop that looks at the clock in every round and
leaves it at a deadline therefore ends, and `reach` bounds its rounds.

A sweep is a `for` over indices whose body changes only the part of the state
that belongs to its index.
-/

namespace IotRobot.Lib

set_option autoImplicit false

structure SteadyClock (T : Type*) [Preorder T] where
  reading : Nat → T
  mono : Monotone reading
  reach : T → Nat
  reach_spec : ∀ t, t ≤ reading (reach t)

namespace SteadyClock

/-- A reading before the deadline is one of the first `reach deadline`. -/
theorem lt_reach {T : Type*} [Preorder T] (c : SteadyClock T) {i : Nat} {deadline : T}
    (h : c.reading i < deadline) : i < c.reach deadline := by
  by_contra hle
  have hm := c.mono (Nat.le_of_not_lt hle)
  have hr := c.reach_spec deadline
  exact absurd h (not_lt_of_ge (hr.trans hm))

/-- The clock that advances by `period` between two readings. -/
def ticking (period : Nat) (h : 0 < period) : SteadyClock Nat where
  reading i := i * period
  mono := fun _ _ hij => Nat.mul_le_mul_right period hij
  reach t := t
  reach_spec t := Nat.le_mul_of_pos_right t h

end SteadyClock

section Loop
variable {σ β : Type*}

/-- `while (true)`, at most `fuel` rounds: a round leaves the loop with a result
or goes round again. `none` is a loop that has not ended yet. -/
def loop (body : σ → β ⊕ σ) : Nat → σ → Option β
  | 0, _ => none
  | fuel + 1, s =>
    match body s with
    | .inl b => some b
    | .inr s' => loop body fuel s'

/-- A loop whose rounds use up a measure ends, given that much fuel. -/
theorem loop_ends (body : σ → β ⊕ σ) (μ : σ → Nat)
    (hbody : ∀ s s', body s = .inr s' → μ s' < μ s) :
    ∀ (fuel : Nat) (s : σ), μ s < fuel → ∃ b, loop body fuel s = some b := by
  intro fuel
  induction fuel with
  | zero => intro s h; omega
  | succ fuel ih =>
    intro s h
    cases hb : body s with
    | inl b => exact ⟨b, by simp only [loop, hb]⟩
    | inr s' =>
      have hlt := hbody s s' hb
      obtain ⟨b, hb'⟩ := ih s' (by omega)
      exact ⟨b, by simp only [loop, hb, hb']⟩

/-- The invariant rule: `I` holds before every round, `Q` of the result. -/
theorem loop_inv (body : σ → β ⊕ σ) (I : σ → Prop) (Q : β → Prop)
    (hround : ∀ s s', I s → body s = .inr s' → I s')
    (hleave : ∀ s b, I s → body s = .inl b → Q b) :
    ∀ (fuel : Nat) (s : σ) (b : β), I s → loop body fuel s = some b → Q b := by
  intro fuel
  induction fuel with
  | zero => intro s b _ h; cases h
  | succ fuel ih =>
    intro s b hi h
    cases hb : body s with
    | inl b' =>
      simp only [loop, hb, Option.some.injEq] at h
      exact h ▸ hleave s b' hi hb
    | inr s' =>
      simp only [loop, hb] at h
      exact ih s' b (hround s s' hi hb) h

/-- Two loops whose rounds agree agree on their results. -/
theorem loop_rel {σ' β' : Type*} (A : σ → σ' → Prop) (B : β → β' → Prop) (body : σ → β ⊕ σ)
    (body' : σ' → β' ⊕ σ') (hbody : ∀ s s', A s s' → Sum.LiftRel B A (body s) (body' s')) :
    ∀ (fuel : Nat) (s : σ) (s' : σ'), A s s' →
      Option.Rel B (loop body fuel s) (loop body' fuel s') := by
  intro fuel
  induction fuel with
  | zero => exact fun _ _ _ => .none
  | succ fuel ih =>
    intro s s' hs
    have h := hbody s s' hs
    simp only [loop]
    generalize body s = r at h
    generalize body' s' = r' at h
    cases h with
    | inl hb => exact .some hb
    | inr hs' => exact ih _ _ hs'

/-- Two conditionals that decide alike are related branch by branch. -/
theorem rel_ite {β' : Type*} {A : β → β' → Prop} {p p' : Prop} [Decidable p] [Decidable p']
    {a b : β} {a' b' : β'} (hp : p' ↔ p) (ha : p → A a a') (hb : ¬ p → A b b') :
    A (if p then a else b) (if p' then a' else b') := by
  by_cases h : p
  · rw [if_pos h, if_pos (hp.mpr h)]
    exact ha h
  · rw [if_neg h, if_neg (hp.not.mpr h)]
    exact hb h

theorem rel_getD {β' : Type*} {B : β → β' → Prop} {a : Option β} {a' : Option β'} {b : β} {b' : β'}
    (h : Option.Rel B a a') (hb : B b b') : B (a.getD b) (a'.getD b') := by
  cases h with
  | none => exact hb
  | some h => exact h

/-- A polling loop ends: every round that goes round again has seen a reading
before the deadline, and `cursor` counts the readings seen. -/
theorem loop_until_deadline {T : Type*} [Preorder T] (c : SteadyClock T) (deadline : T)
    (cursor : σ → Nat) (body : σ → β ⊕ σ)
    (hround : ∀ s s', body s = .inr s' →
      ∃ r, cursor s ≤ r ∧ r < cursor s' ∧ c.reading r < deadline) (s : σ) :
    ∃ b, loop body (c.reach deadline + 1) s = some b := by
  apply loop_ends body (fun s => c.reach deadline - cursor s)
  · intro s s' h
    obtain ⟨r, hle, hlt, hr⟩ := hround s s' h
    have hreach := c.lt_reach hr
    omega
  · omega

end Loop

section Sweep
variable {σ β : Type*} {ι : Type*}

/-- A sweep does to every part what its body does to it, and leaves alone the parts
it does not visit. `I` is what the body may rely on at every visit. -/
theorem sweep_spec (body : σ → ι → σ) (part : σ → ι → β) (I : σ → Prop)
    (R : ι → β → β → Prop) (hkeep : ∀ s i, I s → I (body s i))
    (hself : ∀ s i, I s → R i (part s i) (part (body s i) i))
    (hother : ∀ s i j, I s → j ≠ i → part (body s i) j = part s j) :
    ∀ (l : List ι), l.Nodup → ∀ s, I s →
      I (l.foldl body s) ∧ ∀ j,
        (j ∈ l → R j (part s j) (part (l.foldl body s) j)) ∧
        (j ∉ l → part (l.foldl body s) j = part s j) := by
  intro l
  induction l with
  | nil => exact fun _ s hs => ⟨hs, fun j => ⟨fun h => absurd h List.not_mem_nil, fun _ => rfl⟩⟩
  | cons i l ih =>
    intro hnodup s hs
    obtain ⟨hi, hl⟩ := List.nodup_cons.mp hnodup
    obtain ⟨hinv, hparts⟩ := ih hl (body s i) (hkeep s i hs)
    refine ⟨hinv, fun j => ⟨?_, ?_⟩⟩
    · intro hj
      by_cases hji : j = i
      · subst hji
        rw [List.foldl_cons, (hparts j).2 hi]
        exact hself s j hs
      · have hjl : j ∈ l := (List.mem_cons.mp hj).resolve_left hji
        rw [← hother s i j hs hji]
        exact (hparts j).1 hjl
    · intro hj
      have hji : j ≠ i := fun h => hj (h ▸ List.mem_cons_self)
      have hjl : j ∉ l := fun h => hj (List.mem_cons_of_mem _ h)
      rw [List.foldl_cons, (hparts j).2 hjl, hother s i j hs hji]

/-- A preorder that every visit respects holds between the ends of a sweep. -/
theorem sweep_relates (body : σ → ι → σ) (R : σ → σ → Prop) (hrefl : ∀ s, R s s)
    (htrans : ∀ s t u, R s t → R t u → R s u) (hbody : ∀ s i, R s (body s i)) :
    ∀ (l : List ι) (s : σ), R s (l.foldl body s) := by
  intro l
  induction l with
  | nil => exact hrefl
  | cons i l ih => exact fun s => htrans _ _ _ (hbody s i) (ih (body s i))

/-- A sweep over all of `Fin n`. -/
theorem sweep_all {n : Nat} (body : σ → Fin n → σ) (part : σ → Fin n → β) (I : σ → Prop)
    (R : Fin n → β → β → Prop) (hkeep : ∀ s i, I s → I (body s i))
    (hself : ∀ s i, I s → R i (part s i) (part (body s i) i))
    (hother : ∀ s i j, I s → j ≠ i → part (body s i) j = part s j) (s : σ) (hs : I s) :
    I ((List.finRange n).foldl body s) ∧
      ∀ j, R j (part s j) (part ((List.finRange n).foldl body s) j) := by
  obtain ⟨hinv, hparts⟩ :=
    sweep_spec body part I R hkeep hself hother _ (List.nodup_finRange n) s hs
  exact ⟨hinv, fun j => (hparts j).1 (List.mem_finRange j)⟩

end Sweep

end IotRobot.Lib
