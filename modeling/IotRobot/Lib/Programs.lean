import Mathlib.Data.List.Infix
import Mathlib.Tactic.TypeStar

/-!
# Programs that return, raise or go on

A computation without a state returns a value or raises an exception. A program
runs over a state: its run returns, raises or is still inside a loop when the
observation ends, and in every case the state stays as the run left it. Loops are
followed for a number of rounds. A handler and a `finally` block see returns and
exceptions, never a run that still goes on.

A triple says what holds of the outcome and of the state it leaves, whatever the
outcome is, so one rule a construct is enough.
-/

namespace IotRobot.Lib

set_option autoImplicit false

section Returns
variable {ε α β : Type} {P : α → Prop} {Q : β → Prop} {x : Except ε α}

theorem ok_bind (a : α) (f : α → Except ε β) : (.ok a : Except ε α) >>= f = f a := rfl

/-- The computation returns a value with the property. -/
def Returns (P : α → Prop) (x : Except ε α) : Prop := ∃ a, x = .ok a ∧ P a

theorem Returns.ok {a : α} (h : P a) : Returns P (.ok a : Except ε α) := ⟨a, rfl, h⟩

theorem Returns.bind {f : α → Except ε β} (h : Returns P x) (hf : ∀ a, P a → Returns Q (f a)) :
    Returns Q (x >>= f) := by
  obtain ⟨a, rfl, ha⟩ := h
  exact hf a ha

theorem Returns.map {f : α → β} (h : Returns P x) (hf : ∀ a, P a → Q (f a)) : Returns Q (f <$> x) := by
  obtain ⟨a, rfl, ha⟩ := h
  exact ⟨f a, rfl, hf a ha⟩

end Returns

inductive Outcome (ε α : Type) where
  | returned (a : α)
  | raised (e : ε)
  | running
  deriving DecidableEq

def Prog (σ ε α : Type) : Type := σ → Outcome ε α × σ

namespace Prog
variable {σ ε α β τ ι : Type}

protected def ret (a : α) : Prog σ ε α := fun s => (.returned a, s)

protected def bind (p : Prog σ ε α) (f : α → Prog σ ε β) : Prog σ ε β := fun s =>
  match p s with
  | (.returned a, s) => f a s
  | (.raised e, s) => (.raised e, s)
  | (.running, s) => (.running, s)

instance : Monad (Prog σ ε) where
  pure := Prog.ret
  bind := Prog.bind

/-- `raise e`. -/
def raise (e : ε) : Prog σ ε α := fun s => (.raised e, s)

def read (f : σ → α) : Prog σ ε α := fun s => (.returned (f s), s)

def update (f : σ → σ) : Prog σ ε Unit := fun s => (.returned (), f s)

/-- A computation that may raise and touches no state. -/
def lift (x : Except ε α) : Prog σ ε α := fun s =>
  match x with
  | .ok a => (.returned a, s)
  | .error e => (.raised e, s)

/-- A program over a part of the state. -/
def zoom (get : σ → τ) (put : σ → τ → σ) (p : Prog τ ε α) : Prog σ ε α := fun s =>
  ((p (get s)).1, put s (p (get s)).2)

/-- `try: p except e: h e`; the handler raises again what it does not catch. -/
def handle (p : Prog σ ε α) (h : ε → Prog σ ε α) : Prog σ ε α := fun s =>
  match p s with
  | (.returned a, s) => (.returned a, s)
  | (.raised e, s) => h e s
  | (.running, s) => (.running, s)

/-- `try: p finally: q`. An exception of `q` takes the place of the outcome of `p`. -/
def ensuring (p : Prog σ ε α) (q : Prog σ ε Unit) : Prog σ ε α := fun s =>
  match p s with
  | (.returned a, s) => Prog.bind q (fun _ => Prog.ret a) s
  | (.raised e, s) => Prog.bind q (fun _ => raise e) s
  | (.running, s) => (.running, s)

/-- `for x in l: body x`. -/
def each : List ι → (ι → Prog σ ε Unit) → Prog σ ε Unit
  | [], _ => pure ()
  | x :: l, body => do
    body x
    each l body

/-- `while True: body`, followed for `rounds` rounds; the body leaves the loop with a
result or goes round again with the loop's variables. -/
def forever (body : τ → Prog σ ε (α ⊕ τ)) : Nat → τ → Prog σ ε α
  | 0, _ => fun s => (.running, s)
  | rounds + 1, t => do
    match ← body t with
    | .inl a => pure a
    | .inr t => forever body rounds t

/-- From a state with `P` the run ends, or stands, with `Q`. -/
def Triple (P : σ → Prop) (p : Prog σ ε α) (Q : Outcome ε α → σ → Prop) : Prop :=
  ∀ s, P s → Q (p s).1 (p s).2

/-- What is left of a postcondition once the returned value is out of account. -/
def Aborts (R : Outcome ε α → σ → Prop) (Q : Outcome ε β → σ → Prop) : Prop :=
  (∀ e s, R (.raised e) s → Q (.raised e) s) ∧ ∀ s, R .running s → Q .running s

variable {P P' : σ → Prop} {p : Prog σ ε α} {f : α → Prog σ ε β}
  {Q R : Outcome ε α → σ → Prop} {S : Outcome ε β → σ → Prop}

theorem Triple.weaken (h : Triple P p R) (hpre : ∀ s, P' s → P s)
    (hpost : ∀ o s, R o s → Q o s) : Triple P' p Q :=
  fun s hs => hpost _ _ (h s (hpre s hs))

theorem lift_rule {x : Except ε α} (hok : ∀ a, x = .ok a → ∀ s, P s → Q (.returned a) s)
    (herror : ∀ e, x = .error e → ∀ s, P s → Q (.raised e) s) : Triple P (lift x) Q := by
  intro s hs
  cases x with
  | ok a => exact hok a rfl s hs
  | error e => exact herror e rfl s hs

@[simp] theorem lift_ok_bind (a : α) (f : α → Prog σ ε β) : lift (.ok a) >>= f = f a := rfl

@[simp] theorem lift_error_bind (e : ε) (f : α → Prog σ ε β) :
    lift (.error e) >>= f = raise e := rfl

theorem bind_rule (hp : Triple P p R) (hf : ∀ a, Triple (R (.returned a)) (f a) S)
    (habort : Aborts R S) : Triple P (p >>= f) S := by
  intro s hs
  have h := hp s hs
  show S (Prog.bind p f s).1 (Prog.bind p f s).2
  unfold Prog.bind
  rcases hrun : p s with ⟨o, s'⟩
  rw [hrun] at h
  cases o with
  | returned a => exact hf a s' h
  | raised e => exact habort.1 e s' h
  | running => exact habort.2 s' h

theorem lift_bind_rule {x : Except ε α} (hok : ∀ a, x = .ok a → Triple P (f a) S)
    (herror : ∀ e, x = .error e → ∀ s, P s → S (.raised e) s) : Triple P (lift x >>= f) S := by
  intro s hs
  cases x with
  | ok a => exact hok a rfl s hs
  | error e => exact herror e rfl s hs

theorem read_bind_rule {g : σ → α} (h : ∀ a, Triple (fun s => P s ∧ g s = a) (f a) S) :
    Triple P (read g >>= f) S := fun s hs => h (g s) s ⟨hs, rfl⟩

theorem zoom_rule {get : σ → τ} {put : σ → τ → σ} {p : Prog τ ε α} {I : τ → Prop}
    {T : Outcome ε α → τ → Prop} (hp : Triple I p T) (hpre : ∀ s, P s → I (get s))
    (hpost : ∀ s o t, P s → T o t → Q o (put s t)) : Triple P (zoom get put p) Q :=
  fun s hs => hpost s _ _ hs (hp (get s) (hpre s hs))

theorem handle_rule {h : ε → Prog σ ε α} (hp : Triple P p R)
    (hret : ∀ a s, R (.returned a) s → Q (.returned a) s)
    (hraise : ∀ e, Triple (R (.raised e)) (h e) Q)
    (hrun : ∀ s, R .running s → Q .running s) : Triple P (handle p h) Q := by
  intro s hs
  have hpost := hp s hs
  unfold handle
  rcases hstep : p s with ⟨o, s'⟩
  rw [hstep] at hpost
  cases o with
  | returned a => exact hret a s' hpost
  | raised e => exact hraise e s' hpost
  | running => exact hrun s' hpost

theorem ensuring_rule {q : Prog σ ε Unit} (hp : Triple P p R)
    (hret : ∀ a, Triple (R (.returned a)) (q >>= fun _ => (pure a : Prog σ ε α)) Q)
    (hraise : ∀ e, Triple (R (.raised e)) (q >>= fun _ => (raise e : Prog σ ε α)) Q)
    (hrun : ∀ s, R .running s → Q .running s) : Triple P (ensuring p q) Q := by
  intro s hs
  have hpost := hp s hs
  unfold ensuring
  rcases hstep : p s with ⟨o, s'⟩
  rw [hstep] at hpost
  cases o with
  | returned a => exact hret a s' hpost
  | raised e => exact hraise e s' hpost
  | running => exact hrun s' hpost

/-- The invariant rule of `while True`: `I n` holds whenever the body starts with `n`
rounds to go. A loop that ends in time is one whose `I 0` is false. -/
theorem forever_rule {body : τ → Prog σ ε (α ⊕ τ)} (I : Nat → τ → σ → Prop)
    {R : Nat → Outcome ε (α ⊕ τ) → σ → Prop}
    (hbody : ∀ n t, Triple (I (n + 1) t) (body t) (R n))
    (hround : ∀ n t s, R n (.returned (.inr t)) s → I n t s)
    (hleave : ∀ n a s, R n (.returned (.inl a)) s → Q (.returned a) s)
    (habort : ∀ n, Aborts (R n) Q) (hrun : ∀ t s, I 0 t s → Q .running s) :
    ∀ n t, Triple (I n t) (forever body n t) Q := by
  intro n
  induction n with
  | zero => exact hrun
  | succ n ih =>
    intro t
    refine bind_rule (hbody n t) ?_ (habort n)
    rintro (a | t')
    · exact hleave n a
    · exact (ih t').weaken (hround n t') fun _ _ h => h

/-- No run of the program is left running. -/
def Halts (p : Prog σ ε α) : Prop := ∀ s, (p s).1 ≠ .running

theorem halts_ret (a : α) : Halts (pure a : Prog σ ε α) := fun _ h => by cases h

theorem halts_lift (x : Except ε α) : Halts (lift x : Prog σ ε α) := by
  intro s h
  cases x with
  | ok a => cases h
  | error e => cases h

theorem halts_bind (hp : Halts p) (hf : ∀ a, Halts (f a)) : Halts (p >>= f) := by
  intro s
  have hps := hp s
  show (Prog.bind p f s).1 ≠ .running
  unfold Prog.bind
  rcases hrun : p s with ⟨o, s'⟩
  rw [hrun] at hps
  cases o with
  | returned a => exact hf a s'
  | raised e => exact fun h => by cases h
  | running => exact absurd rfl hps

theorem halts_each {body : ι → Prog σ ε Unit} (hbody : ∀ x, Halts (body x)) :
    ∀ l, Halts (each l body) := by
  intro l
  induction l with
  | nil => exact halts_ret ()
  | cons x l ih => exact halts_bind (hbody x) fun _ => ih

/-- The invariant holds after a return and while the run goes on; an exception `e`
leaves a state with `E e`. -/
inductive Kept (I : σ → Prop) (E : ε → σ → Prop) : Outcome ε α → σ → Prop
  | returned (a : α) (s : σ) : I s → Kept I E (.returned a) s
  | raised (e : ε) (s : σ) : E e s → Kept I E (.raised e) s
  | running (s : σ) : I s → Kept I E .running s

abbrev Keeps (I : σ → Prop) (E : ε → σ → Prop) (p : Prog σ ε α) : Prop := Triple I p (Kept I E)

section Keeps
variable {I : σ → Prop} {E : ε → σ → Prop}

theorem Kept.aborts : Aborts (Kept I E (α := α)) (Kept I E (α := β)) := by
  refine ⟨fun e s h => ?_, fun s h => ?_⟩
  · cases h with
    | raised _ _ h => exact .raised e s h
  · cases h with
    | running _ h => exact .running s h

/-- An invariant that exceptions keep as well holds in the end. -/
theorem Kept.any {o : Outcome ε α} {s : σ} (h : Kept I (fun _ => I) o s) : I s := by
  cases h with
  | returned _ _ h => exact h
  | raised _ _ h => exact h
  | running _ h => exact h

theorem Kept.all {s : σ} (o : Outcome ε α) (h : I s) : Kept I (fun _ => I) o s := by
  cases o with
  | returned a => exact .returned a s h
  | raised e => exact .raised e s h
  | running => exact .running s h

theorem keeps_ret (a : α) : Keeps I E (pure a : Prog σ ε α) := fun s h => .returned a s h

theorem keeps_lift {x : Except ε α} (h : ∀ e, x = .error e → ∀ s, I s → E e s) :
    Keeps I E (lift x : Prog σ ε α) :=
  lift_rule (fun a _ s hs => .returned a s hs) fun e he s hs => .raised e s (h e he s hs)

theorem keeps_bind (hp : Keeps I E p) (hf : ∀ a, Keeps I E (f a)) : Keeps I E (p >>= f) := by
  refine bind_rule hp (fun a => (hf a).weaken ?_ fun _ _ h => h) Kept.aborts
  intro s h
  cases h with
  | returned _ _ h => exact h

theorem keeps_each {body : ι → Prog σ ε Unit} (hbody : ∀ x, Keeps I E (body x)) :
    ∀ l, Keeps I E (each l body) := by
  intro l
  induction l with
  | nil => exact keeps_ret ()
  | cons x l ih => exact keeps_bind (hbody x) fun _ => ih

theorem keeps_forever {body : τ → Prog σ ε (α ⊕ τ)} (hbody : ∀ t, Keeps I E (body t)) (n : Nat)
    (t : τ) : Keeps I E (forever body n t) := by
  refine forever_rule (fun _ _ => I) (R := fun _ => Kept I E) (fun _ => hbody) ?_ ?_
    (fun _ => Kept.aborts) (fun _ s h => .running s h) n t
  · intro _ _ s h
    cases h with
    | returned _ _ h => exact h
  · intro _ a s h
    cases h with
    | returned _ _ h => exact .returned a s h

end Keeps

end Prog

end IotRobot.Lib
