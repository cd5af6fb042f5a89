import Mathlib.Tactic.TypeStar

/-!
# Finite runs of a labelled transition relation

A run is built at its end, so an induction on it looks at the last step. The
rules below are the ones a safety proof needs: what every step preserves holds
at the end of the run, and a reflexive and transitive relation between the two
states of every step relates the two ends.
-/

namespace IotRobot.Lib

set_option autoImplicit false

/-- `Run next s es t`: the events `es`, in this order, lead from `s` to `t`. -/
inductive Run {σ ε : Type*} (next : σ → ε → σ → Prop) (s : σ) : List ε → σ → Prop
  | nil : Run next s [] s
  | snoc {es : List ε} {t u : σ} {e : ε} :
      Run next s es t → next t e u → Run next s (es ++ [e]) u

namespace Run
variable {σ ε : Type*} {next next' : σ → ε → σ → Prop} {s t u : σ} {es fs : List ε} {e : ε}

theorem single (h : next s e t) : Run next s [e] t := .snoc .nil h

/-- A run that is not empty has a last step. -/
theorem of_snoc (h : Run next s (es ++ [e]) u) : ∃ t, Run next s es t ∧ next t e u := by
  generalize hes : es ++ [e] = fs at h
  cases h with
  | nil => simp at hes
  | snoc hr hn =>
    obtain ⟨rfl, he⟩ := List.append_inj' hes rfl
    obtain rfl := List.singleton_inj.mp he
    exact ⟨_, hr, hn⟩

theorem of_single (h : Run next s [e] u) : next s e u := by
  have hlast : Run next s ([] ++ [e]) u := h
  obtain ⟨t, hr, hn⟩ := hlast.of_snoc
  generalize hes : ([] : List ε) = es at hr
  cases hr with
  | nil => exact hn
  | snoc _ _ => simp at hes

theorem append (h : Run next s es t) (g : Run next t fs u) : Run next s (es ++ fs) u := by
  induction g with
  | nil => simpa using h
  | snoc _ hn ih =>
    rw [← List.append_assoc]
    exact ih.snoc hn

theorem mono (hle : ∀ s e t, next s e t → next' s e t) (h : Run next s es t) :
    Run next' s es t := by
  induction h with
  | nil => exact .nil
  | snoc _ hn ih => exact ih.snoc (hle _ _ _ hn)

/-- What holds of the events can be asked of the steps. -/
theorem and_of_mem {P : σ → ε → σ → Prop} (h : Run next s es t)
    (hP : ∀ e ∈ es, ∀ a b, P a e b) : Run (fun a e b => next a e b ∧ P a e b) s es t := by
  induction h with
  | nil => exact .nil
  | snoc _ hn ih =>
    have hbefore := ih fun e he => hP e (List.mem_append_left _ he)
    exact hbefore.snoc ⟨hn, hP _ (List.mem_append_right _ List.mem_cons_self) _ _⟩

/-- What holds at the start and is kept by every step holds at the end. -/
theorem invariant (I : σ → Prop) (h : Run next s es t) (h0 : I s)
    (hstep : ∀ a b e, I a → next a e b → I b) : I t := by
  induction h with
  | nil => exact h0
  | snoc _ hn ih => exact hstep _ _ _ ih hn

/-- Two conditions that agree on every step from a state with an invariant agree on every
run that starts with it. -/
theorem iff_of_invariant (I : σ → Prop) {P Q : σ → ε → σ → Prop} (h0 : I s)
    (hkeep : ∀ a e b, I a → next a e b → I b)
    (hiff : ∀ a e b, I a → next a e b → (P a e b ↔ Q a e b)) :
    Run (fun a e b => next a e b ∧ P a e b) s es t ↔
      Run (fun a e b => next a e b ∧ Q a e b) s es t := by
  have hforth : ∀ {P Q : σ → ε → σ → Prop},
      (∀ a e b, I a → next a e b → P a e b → Q a e b) →
      Run (fun a e b => next a e b ∧ P a e b) s es t →
      I t ∧ Run (fun a e b => next a e b ∧ Q a e b) s es t := by
    intro P Q himp h
    induction h with
    | nil => exact ⟨h0, .nil⟩
    | snoc _ hn ih =>
      obtain ⟨hi, hrun⟩ := ih
      exact ⟨hkeep _ _ _ hi hn.1, hrun.snoc ⟨hn.1, himp _ _ _ hi hn.1 hn.2⟩⟩
  constructor
  · exact fun h => (hforth (fun a e b hi hn => (hiff a e b hi hn).mp) h).2
  · exact fun h => (hforth (fun a e b hi hn => (hiff a e b hi hn).mpr) h).2

/-- Two conditions that agree on every step agree on every run. -/
theorem iff_of_steps {P Q : σ → ε → σ → Prop} (hiff : ∀ s e t, next s e t → (P s e t ↔ Q s e t)) :
    Run (fun s e t => next s e t ∧ P s e t) s es t ↔
      Run (fun s e t => next s e t ∧ Q s e t) s es t :=
  iff_of_invariant (fun _ => True) trivial (fun _ _ _ _ _ => trivial)
    fun a e b _ hn => hiff a e b hn

section Histories
variable {α : Type*} {f : σ → ε → σ}

/-- Where every step is that of a function, the run ends where folding it does. -/
theorem foldl_eq (hf : ∀ a e b, next a e b → b = f a e) (h : Run next s es t) :
    es.foldl f s = t := by
  induction h with
  | nil => rfl
  | snoc _ hn ih =>
    rw [List.foldl_append, ih]
    exact (hf _ _ _ hn).symm

/-- What an event after the run adds to a history that is read off the states it passes. -/
theorem history_snoc {history : σ → List ε → List α} {g : σ → ε → List α}
    (hnil : ∀ s, history s [] = [])
    (hcons : ∀ s e es, history s (e :: es) = g s e ++ history (f s e) es)
    (hf : ∀ a e b, next a e b → b = f a e) (h : Run next s es t) (e : ε) :
    history s (es ++ [e]) = history s es ++ g t e := by
  have hfold : ∀ (es : List ε) (s : σ),
      history s (es ++ [e]) = history s es ++ g (es.foldl f s) e := by
    intro es
    induction es with
    | nil =>
      intro s
      rw [List.nil_append, hcons, hnil, hnil, List.append_nil]
      rfl
    | cons d es ih =>
      intro s
      rw [List.cons_append, hcons, hcons, ih, List.append_assoc]
      rfl
  rw [hfold, h.foldl_eq hf]

end Histories

/-- Events that can be taken one after the other make a run. -/
theorem of_foldlM {f : σ → ε → Option σ} (h : es.foldlM f s = some t) :
    Run (fun a e b => f a e = some b) s es t := by
  induction es generalizing s with
  | nil =>
    obtain rfl := Option.some.inj h
    exact .nil
  | cons e es ih =>
    rw [List.foldlM_cons] at h
    obtain ⟨between, hstep, hrest⟩ := Option.bind_eq_some_iff.mp h
    exact (Run.single hstep).append (ih hrest)

/-- Either no step of a run is a `P` step, or the run parts at the first one. -/
theorem split_first (P : σ → ε → σ → Prop) (h : Run next s es t) :
    Run (fun a e b => next a e b ∧ ¬ P a e b) s es t ∨
      ∃ before e rest u v, es = before ++ e :: rest ∧
        Run (fun a e b => next a e b ∧ ¬ P a e b) s before u ∧ next u e v ∧ P u e v ∧
        Run next v rest t := by
  induction h with
  | nil => exact .inl .nil
  | snoc _ hn ih =>
    rename_i es a b e _
    rcases ih with hnone | ⟨before, d, rest, u, v, rfl, hbefore, hd, hP, hrest⟩
    · by_cases hP : P a e b
      · exact .inr ⟨es, e, [], a, b, rfl, hnone, hn, hP, .nil⟩
      · exact .inl (hnone.snoc ⟨hn, hP⟩)
    · exact .inr ⟨before, d, rest ++ [e], u, v, by simp, hbefore, hd, hP, hrest.snoc hn⟩

/-- A preorder that every step respects holds between the ends of a run. -/
theorem relates (R : σ → σ → Prop) (hrefl : ∀ a, R a a)
    (htrans : ∀ a b c, R a b → R b c → R a c)
    (hstep : ∀ a b e, next a e b → R a b) (h : Run next s es t) : R s t := by
  induction h with
  | nil => exact hrefl _
  | snoc _ hn ih => exact htrans _ _ _ ih (hstep _ _ _ hn)

end Run

end IotRobot.Lib
