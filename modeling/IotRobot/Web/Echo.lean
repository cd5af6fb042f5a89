import IotRobot.Lib.Runs
import IotRobot.Web.Logic

/-!
# The echo filter over whole runs

A node publishes values on a topic it also reads. Its own values come back in the order
sent, among those of other publishers. An own value that another publisher's took the
echo of is not expected any more; when it comes back it may in turn take the echo of a
later one. The values whose echo was taken so are as many, value by value, as the foreign
messages that were taken for one.
-/

namespace IotRobot.Web

open Lib

set_option autoImplicit false

inductive EchoEvent (V : Type) where
  | sent (value : V)
  | own
  | foreign (value : V)

/-- The filter with the topic around it: the own values on their way with the instants they
were sent at, the foreign messages delivered, and the deliveries judged not an echo. -/
structure Echoes (K V : Type) where
  clock : K
  filter : EchoFilter K V
  pending : List (V × K) := []
  foreign : List V := []
  refused : List V := []

variable {K V : Type} [Field K] [LinearOrder K] [DecidableEq V]

def Echoes.deliver (s : Echoes K V) (value : V) (now : K) : Echoes K V :=
  let (echo, filter) := s.filter.is_echo value now
  { s with
    clock := now
    filter := filter
    refused := if echo then s.refused else s.refused ++ [value] }

/-- One event at `e.1`: own values are delivered in the order sent, each within the
timeout. -/
def echo_next (s : Echoes K V) (e : K × EchoEvent V) (s' : Echoes K V) : Prop :=
  s.clock ≤ e.1 ∧
    match e.2 with
    | .sent value => s' = { s with
        clock := e.1
        filter := s.filter.sent value e.1
        pending := s.pending ++ [(value, e.1)] }
    | .own => ∃ entry rest, s.pending = entry :: rest ∧ e.1 - entry.2 ≤ s.filter.timeout ∧
        s' = { s with pending := rest }.deliver entry.1 e.1
    | .foreign value => s' = { s with foreign := s.foreign ++ [value] }.deliver value e.1

def echo_start (timeout t : K) : Echoes K V where
  clock := t
  filter := { timeout := timeout }

/-- What a delivery does while nothing is too old. -/
inductive Judged (s : Echoes K V) (value : V) (now : K) (s' : Echoes K V) : Prop
  | echo (entry : V × K) (rest : List (V × K)) (hq : s.filter.outstanding = entry :: rest)
      (hv : entry.1 = value)
      (hs : s' = { s with clock := now, filter := { s.filter with outstanding := rest } })
  | refused (hne : ∀ entry ∈ s.filter.outstanding.head?, entry.1 ≠ value)
      (hs : s' = { s with clock := now, refused := s.refused ++ [value] })

omit [DecidableEq V] in
theorem unexpired_all {filter : EchoFilter K V} {now : K}
    (h : ∀ entry ∈ filter.outstanding, now - entry.2 ≤ filter.timeout) :
    filter.unexpired now = filter.outstanding := by
  unfold EchoFilter.unexpired
  cases hq : filter.outstanding with
  | nil => rfl
  | cons entry rest =>
    have hyoung : ¬ filter.timeout < now - entry.2 :=
      not_lt.mpr (h entry (hq ▸ List.mem_cons_self))
    rw [List.dropWhile_cons_of_neg (by simpa using hyoung)]

theorem deliver_judged {s : Echoes K V} {value : V} {now : K}
    (h : ∀ entry ∈ s.filter.outstanding, now - entry.2 ≤ s.filter.timeout) :
    Judged s value now (s.deliver value now) := by
  have hq := unexpired_all h
  unfold Echoes.deliver EchoFilter.is_echo
  rw [hq]
  cases ho : s.filter.outstanding with
  | nil =>
    refine .refused (by rw [ho]; exact fun _ h => by cases h) ?_
    show { s with clock := now, filter := _, refused := s.refused ++ [value] } = _
    rw [← ho]
  | cons entry rest =>
    by_cases hv : entry.1 = value
    · refine .echo entry rest ho hv ?_
      dsimp only
      rw [if_pos hv]
      rfl
    · refine .refused (by rw [ho]; rintro _ ⟨⟩; exact hv) ?_
      dsimp only
      rw [if_neg hv, ← ho]
      rfl

/-- No own value on its way is older than the timeout. -/
def Timely (s : Echoes K V) : Prop :=
  ∀ entry ∈ s.pending, s.clock - entry.2 ≤ s.filter.timeout

theorem deliver_timeout (s : Echoes K V) (value : V) (now : K) :
    (s.deliver value now).filter.timeout = s.filter.timeout := by
  unfold Echoes.deliver EchoFilter.is_echo
  cases s.filter.unexpired now with
  | nil => rfl
  | cons entry rest =>
    by_cases hv : entry.1 = value
    · simp only [hv, ↓reduceIte]
    · simp only [hv, ↓reduceIte]

theorem echo_next_timeout {s s' : Echoes K V} {e : K × EchoEvent V} (h : echo_next s e s') :
    s'.filter.timeout = s.filter.timeout := by
  obtain ⟨now, event⟩ := e
  cases event with
  | sent value => rw [h.2]; rfl
  | own =>
    obtain ⟨-, entry, rest, -, -, rfl⟩ := h
    exact deliver_timeout ..
  | foreign value => rw [h.2]; exact deliver_timeout ..

/-- What is delivered in time later is not too old now. -/
theorem Timely.before [IsStrictOrderedRing K] {s s' : Echoes K V} {e : K × EchoEvent V} (h : echo_next s e s')
    (ht : Timely s') : Timely s := by
  have htimeout := echo_next_timeout h
  obtain ⟨now, event⟩ := e
  obtain ⟨hclock, h⟩ := h
  -- an age at `now` bounds the age before
  have hage : ∀ entry : V × K, now - entry.2 ≤ s.filter.timeout →
      s.clock - entry.2 ≤ s.filter.timeout := fun entry hle =>
    (sub_le_sub_right hclock entry.2).trans hle
  cases event with
  | sent value =>
    subst h
    exact fun entry hm => hage entry (ht entry (List.mem_append_left _ hm))
  | own =>
    obtain ⟨entry, rest, hpending, hfresh, rfl⟩ := h
    rw [Timely, htimeout] at ht
    rw [Timely, hpending]
    intro other hm
    rcases List.mem_cons.mp hm with rfl | hm
    · exact hage other hfresh
    · exact hage other (ht other hm)
  | foreign value =>
    subst h
    rw [Timely, htimeout] at ht
    exact fun entry hm => hage entry (ht entry hm)

/-- The filter expects the latest of the own values on their way. Of the rest, `taken`, and
of the messages refused there are together as many as foreign messages, value by value. -/
def Matched (s : Echoes K V) : Prop :=
  ∃ taken, s.pending = taken ++ s.filter.outstanding ∧
    ∀ v, s.refused.count v + (taken.map Prod.fst).count v = s.foreign.count v

omit [Field K] [LinearOrder K] in
theorem Matched.start (timeout t : K) : Matched (echo_start timeout t : Echoes K V) :=
  ⟨[], rfl, fun _ => rfl⟩

theorem count_snoc (l : List V) (a v : V) :
    (l ++ [a]).count v = l.count v + [a].count v := List.count_append

theorem count_head (a v : V) (l : List V) : (a :: l).count v = [a].count v + l.count v := by
  rw [← List.singleton_append, List.count_append]

theorem Matched.foreign {s s' : Echoes K V} {value : V} {now : K} (h : Matched s)
    (ht : ∀ entry ∈ s.pending, now - entry.2 ≤ s.filter.timeout)
    (hs : s' = { s with foreign := s.foreign ++ [value] }.deliver value now) : Matched s' := by
  obtain ⟨taken, hpending, hcount⟩ := h
  subst hs
  have hfresh : ∀ entry ∈ s.filter.outstanding, now - entry.2 ≤ s.filter.timeout := fun entry hm =>
    ht entry (hpending ▸ List.mem_append_right _ hm)
  have hjudged : Judged { s with foreign := s.foreign ++ [value] } value now _ :=
    deliver_judged hfresh
  cases hjudged with
  | echo entry rest hq hv hs =>
    -- the foreign message takes the echo of `entry`
    rw [hs]
    refine ⟨taken ++ [entry], ?_, fun v => ?_⟩
    · show s.pending = _
      rw [hpending, List.append_assoc]
      exact congrArg (taken ++ ·) hq
    · show s.refused.count v + _ = (s.foreign ++ [value]).count v
      rw [List.map_append, List.map_singleton, count_snoc, count_snoc, hv, ← hcount v]
      omega
  | refused hne hs =>
    rw [hs]
    refine ⟨taken, hpending, fun v => ?_⟩
    show (s.refused ++ [value]).count v + _ = (s.foreign ++ [value]).count v
    rw [count_snoc, count_snoc, ← hcount v]
    omega

theorem Matched.own {s s' : Echoes K V} {entry : V × K} {rest : List (V × K)} {now : K}
    (h : Matched s) (hp : s.pending = entry :: rest)
    (ht : ∀ entry ∈ s.pending, now - entry.2 ≤ s.filter.timeout)
    (hs : s' = { s with pending := rest }.deliver entry.1 now) : Matched s' := by
  obtain ⟨taken, hpending, hcount⟩ := h
  subst hs
  have hfresh : ∀ entry ∈ s.filter.outstanding, now - entry.2 ≤ s.filter.timeout := fun entry hm =>
    ht entry (hpending ▸ List.mem_append_right _ hm)
  have hjudged : Judged { s with pending := rest } entry.1 now _ := deliver_judged hfresh
  rw [hp] at hpending
  cases taken with
  | nil =>
    -- the value is the oldest one expected
    cases hjudged with
    | echo oldest left hq hv hs =>
      rw [hs]
      have hq : s.filter.outstanding = oldest :: left := hq
      rw [hq, List.nil_append] at hpending
      injection hpending with _ hrest
      exact ⟨[], hrest, hcount⟩
    | refused hne hs =>
      have hhead : entry ∈ s.filter.outstanding.head? := by
        rw [← show entry :: rest = s.filter.outstanding from hpending]
        rfl
      exact absurd rfl (hne entry hhead)
  | cons first taken =>
    -- its echo was taken: it is refused, or takes the echo of a later value
    injection hpending with hfirst hrest
    subst hfirst
    cases hjudged with
    | echo oldest left hq hv hs =>
      rw [hs]
      refine ⟨taken ++ [oldest], ?_, fun v => ?_⟩
      · show rest = _
        rw [hrest, List.append_assoc]
        exact congrArg (taken ++ ·) hq
      · show s.refused.count v + _ = s.foreign.count v
        rw [← hcount v, List.map_append, List.map_singleton, count_snoc, hv, List.map_cons,
          count_head entry.1 v (taken.map Prod.fst)]
        omega
    | refused hne hs =>
      rw [hs]
      refine ⟨taken, hrest, fun v => ?_⟩
      show (s.refused ++ [entry.1]).count v + _ = s.foreign.count v
      rw [← hcount v, count_snoc, List.map_cons, count_head entry.1 v (taken.map Prod.fst)]
      omega

theorem echo_next_matched {s s' : Echoes K V} {e : K × EchoEvent V} (hn : echo_next s e s')
    (h : Matched s) (ht : Timely s') : Matched s' := by
  have htimeout := echo_next_timeout hn
  obtain ⟨now, event⟩ := e
  obtain ⟨hclock, hn⟩ := hn
  rw [Timely, htimeout] at ht
  cases event with
  | sent value =>
    obtain ⟨taken, hpending, hcount⟩ := h
    subst hn
    refine ⟨taken, ?_, hcount⟩
    show s.pending ++ _ = taken ++ (s.filter.outstanding ++ _)
    rw [hpending, List.append_assoc]
  | own =>
    obtain ⟨entry, rest, hpending, hfresh, rfl⟩ := hn
    refine h.own hpending (fun other hm => ?_) rfl
    rw [hpending] at hm
    rcases List.mem_cons.mp hm with rfl | hm
    · exact hfresh
    · exact ht other hm
  | foreign value =>
    subst hn
    exact h.foreign (fun entry hm => ht entry hm) rfl

/-- In every run in which all own values come back, in order and in time, nothing is
expected in the end and as many messages of each value were refused as foreign ones came
in. -/
theorem echoes_match [IsStrictOrderedRing K] {timeout t : K} {es : List (K × EchoEvent V)} {s : Echoes K V}
    (h : Run echo_next (echo_start timeout t) es s) (hdone : s.pending = []) :
    s.filter.outstanding = [] ∧ (∀ v, s.refused.count v = s.foreign.count v) ∧
      (s.foreign = [] → s.refused = []) := by
  have hmatched : Timely s → Matched s := by
    clear hdone
    induction h with
    | nil => exact fun _ => Matched.start timeout t
    | snoc hr hn ih => exact fun ht => echo_next_matched hn (ih (ht.before hn)) ht
  have hlate : Timely s := by
    intro entry hm
    rw [hdone] at hm
    cases hm
  obtain ⟨taken, hpending, hcount⟩ := hmatched hlate
  obtain ⟨rfl, hnone⟩ := List.append_eq_nil_iff.mp (hpending.symm.trans hdone)
  have hsame : ∀ v, s.refused.count v = s.foreign.count v := hcount
  refine ⟨hnone, hsame, fun hforeign => ?_⟩
  refine List.eq_nil_iff_forall_not_mem.mpr fun v hv => ?_
  have hpos : 0 < s.refused.count v := List.count_pos_iff.mpr hv
  rw [hsame v, hforeign] at hpos
  exact absurd hpos (Nat.lt_irrefl 0)

/-- A foreign value took the echo of an own one, which was then refused. -/
def crossed : Echoes ℚ Bool where
  clock := 1 / 5
  filter := { timeout := 1 }
  foreign := [true]
  refused := [true]

theorem crossed_run : Run echo_next (echo_start 1 0)
    [(0, .sent true), (1 / 10, .foreign true), (1 / 5, .own)] crossed := by
  let s₁ : Echoes ℚ Bool := { clock := 0, filter := ⟨1, [(true, 0)]⟩, pending := [(true, 0)] }
  let s₂ : Echoes ℚ Bool :=
    { clock := 1 / 10, filter := ⟨1, []⟩, pending := [(true, 0)], foreign := [true] }
  have h₁ : echo_next (echo_start 1 0) (0, .sent true) s₁ := ⟨le_refl _, rfl⟩
  have h₂ : echo_next s₁ (1 / 10, .foreign true) s₂ := by
    refine ⟨by norm_num [s₁], ?_⟩
    norm_num [s₁, s₂, Echoes.deliver, EchoFilter.is_echo, EchoFilter.unexpired]
  have h₃ : echo_next s₂ (1 / 5, .own) crossed := by
    refine ⟨by norm_num [s₂], (true, 0), [], rfl, by norm_num [s₂], ?_⟩
    norm_num [s₂, crossed, Echoes.deliver, EchoFilter.is_echo, EchoFilter.unexpired]
  exact ((Run.single h₁).snoc h₂).snoc h₃

theorem crossed_matches : crossed.refused.count true = crossed.foreign.count true :=
  (echoes_match crossed_run rfl).2.1 true

end IotRobot.Web
