import IotRobot.Can.Cubemars

/-!
# Loops with a deadline end

The loops of `stop_motors` and `listen` look at the clock in every round and go
round again only before their deadline. The clock passes it, so with rounds
enough both return, unless a system call fails.
-/

namespace IotRobot.Can

open Lib Prog

set_option autoImplicit false

section Poll
variable {K α τ : Type} [Preorder K] (bus : Bus K) (deadline : K)

/-- One round that starts at reading `r`: it leaves, or it has seen a reading before the
deadline and goes on with `J`. -/
inductive Polled (J : τ → Session K → Prop) (Q : Outcome (Exception K) α → Session K → Prop)
    (r : Nat) : Outcome (Exception K) (α ⊕ τ) → Session K → Prop
  | leaves (a : α) (s : Session K) : Q (.returned a) s → s.readings ≤ r + 1 →
      Polled J Q r (.returned (.inl a)) s
  | again (t : τ) (s : Session K) : J t s → s.readings = r + 1 →
      bus.clock.reading r < deadline → Polled J Q r (.returned (.inr t)) s
  | raises (e : Exception K) (s : Session K) : Q (.raised e) s → Polled J Q r (.raised e) s

/-- What a loop of such rounds leaves. -/
inductive Over (Q : Outcome (Exception K) α → Session K → Prop) (r : Nat) :
    Outcome (Exception K) α → Session K → Prop
  | returned (a : α) (s : Session K) : Q (.returned a) s →
      s.readings ≤ max r (bus.clock.reach deadline) + 1 → Over Q r (.returned a) s
  | raised (e : Exception K) (s : Session K) : Q (.raised e) s → Over Q r (.raised e) s

variable {bus deadline}

theorem poll_rule {body : τ → Tool K (α ⊕ τ)} {J : τ → Session K → Prop}
    {Q : Outcome (Exception K) α → Session K → Prop} {r₀ : Nat}
    (hrounds : bus.clock.reach deadline ≤ bus.rounds)
    (hbody : ∀ t r, Triple (fun s => J t s ∧ s.readings = r) (body t) (Polled bus deadline J Q r))
    (t : τ) : Triple (fun s => J t s ∧ s.readings = r₀) (forever body (bus.rounds + 1) t)
      (Over bus deadline Q r₀) := by
  -- a round that goes on uses up a reading before the deadline, and there are `reach` of them
  let I : Nat → τ → Session K → Prop := fun n t s =>
    J t s ∧ bus.rounds + 1 + r₀ ≤ s.readings + n ∧
      (n = bus.rounds + 1 ∧ s.readings = r₀ ∨ s.readings ≤ bus.clock.reach deadline)
  let R : Nat → Outcome (Exception K) (α ⊕ τ) → Session K → Prop := fun n o s =>
    ∃ r, Polled bus deadline J Q r o s ∧ bus.rounds + r₀ ≤ r + n ∧
      r ≤ max r₀ (bus.clock.reach deadline)
  refine (forever_rule I (R := R) ?_ ?_ ?_ ?_ ?_ (bus.rounds + 1) t).weaken ?_ fun _ _ h => h
  · rintro n t s ⟨hJ, hcount, hreadings⟩
    refine ⟨s.readings, hbody t s.readings s ⟨hJ, rfl⟩, by omega, ?_⟩
    rcases hreadings with ⟨-, h⟩ | h
    · exact le_max_of_le_left h.le
    · exact le_max_of_le_right h
  · rintro n t s ⟨r, hpolled, hcount, -⟩
    cases hpolled with
    | again _ _ hJ hreadings hbefore =>
      have hreach := bus.clock.lt_reach hbefore
      exact ⟨hJ, by omega, .inr (by omega)⟩
  · rintro n a s ⟨r, hpolled, -, hmax⟩
    cases hpolled with
    | leaves _ _ hQ hreadings => exact .returned a s hQ (by omega)
  · intro n
    refine ⟨?_, ?_⟩
    · rintro e s ⟨r, hpolled, -⟩
      cases hpolled with
      | raises _ _ hQ => exact .raised e s hQ
    · rintro s ⟨r, hpolled, -⟩
      cases hpolled
  · rintro t s ⟨-, hcount, ⟨h, -⟩ | h⟩
    · omega
    · omega
  · rintro s ⟨hJ, hreadings⟩
    exact ⟨hJ, by omega, .inl ⟨rfl, hreadings⟩⟩

/-- A reading of the clock is the one whose turn it is. -/
theorem monotonic_rule {P : Session K → Prop} {f : K → Tool K α}
    {Q : Outcome (Exception K) α → Session K → Prop} {r : Nat}
    (hkeep : ∀ s, P s → P { s with readings := s.readings + 1 })
    (hf : Triple (fun s => P s ∧ s.readings = r + 1) (f (bus.clock.reading r)) Q) :
    Triple (fun s => P s ∧ s.readings = r) (monotonic bus >>= f) Q := by
  rintro s ⟨hs, rfl⟩
  exact hf _ ⟨hkeep s hs, rfl⟩

end Poll

section Working
variable {K α : Type} [Preorder K]

/-- The system calls succeed and no receive fails. -/
structure Bus.Working (bus : Bus K) : Prop where
  calls : ∀ i, bus.calls i = true
  receives : ∀ i, (∃ frame, bus.receives i = .frame frame) ∨ bus.receives i = .timeout

theorem open_rule {bus : Bus K} (hworking : bus.Working) {P : Session K → Prop}
    {f : Unit → Tool K α} {Q : Outcome (Exception K) α → Session K → Prop}
    (hkeep : ∀ s, P s → P { s with calls := s.calls + 1 }) (hf : Triple P (f ()) Q) :
    Triple P (open_socket bus >>= f) Q := by
  intro s hs
  show Q (Prog.bind (open_socket bus) f s).1 (Prog.bind (open_socket bus) f s).2
  unfold Prog.bind open_socket
  rw [if_pos (hworking.calls s.calls)]
  exact hf _ (hkeep s hs)

end Working

section Stop
variable {K : Type} [Field K] [LinearOrder K] [IsStrictOrderedRing K] [FloorRing K] {bus : Bus K}
  {can_ids : List Nat} {deadline : K}

omit [Field K] [IsStrictOrderedRing K] [FloorRing K] in
theorem send_halts (frame : CanFrame) : Halts (send bus frame) := by
  intro s
  unfold send
  cases bus.calls s.calls with
  | true => exact fun h => by cases h
  | false => exact fun h => by cases h

omit [Field K] [IsStrictOrderedRing K] [FloorRing K] in
theorem send_readings (frame : CanFrame) (r : Nat) :
    Keeps (fun s : Session K => s.readings = r) (fun _ s => s.readings = r) (send bus frame) := by
  intro s hs
  unfold send
  cases bus.calls s.calls with
  | true => exact .returned () _ hs
  | false => exact .raised _ _ hs

omit [IsStrictOrderedRing K] in
/-- Sending zero speed to every motor takes no reading of the clock. -/
theorem send_zero_speeds_ends (r : Nat) : Triple (fun s => s.readings = r)
    (send_zero_speeds bus can_ids) fun o s => s.readings = r ∧ o ≠ .running := by
  have hkeeps : Keeps (fun s : Session K => s.readings = r) (fun _ s => s.readings = r)
      (send_zero_speeds bus can_ids) :=
    keeps_each (fun can_id => keeps_bind (keeps_lift fun _ _ _ h => h) fun frame =>
      send_readings frame r) can_ids
  have hhalts : Halts (send_zero_speeds bus can_ids) :=
    halts_each (fun can_id => halts_bind (halts_lift _) fun frame => send_halts frame) can_ids
  exact fun s hs => ⟨(hkeeps s hs).any, hhalts s⟩

/-- The brake loop ends, wherever its end lies before `deadline`. -/
theorem brake_ends {end_ period : K} (hend : end_ ≤ deadline) (hperiod : 0 < period)
    (hrounds : bus.clock.reach deadline ≤ bus.rounds) (r : Nat) :
    Triple (fun s => s.readings = r)
      (forever (fun () => brake_round bus can_ids (.fin end_) period) (bus.rounds + 1) ())
      (Over bus deadline (fun _ _ => True) r) := by
  refine (poll_rule (J := fun () _ => True) hrounds (fun () r => ?_) ()).weaken
    (fun s hs => ⟨trivial, hs⟩) fun _ _ h => h
  refine Triple.weaken (P := fun s => s.readings = r) ?_ (fun s hs => hs.2) fun _ _ h => h
  refine bind_rule ((send_zero_speeds_ends r).weaken (fun _ h => h) fun o s h => And.comm.mp h)
    (fun _ => ?_) ⟨?_, ?_⟩
  · -- the reading after the sweep decides
    refine monotonic_rule (fun _ h => h) ?_
    split
    · exact fun s hs => .leaves () s trivial hs.2.le
    · next hgo =>
      have hbefore : bus.clock.reading r + period ≤ end_ := not_lt.mp hgo
      exact fun s hs => .again () s trivial hs.2 (by linarith)
  · exact fun e s _ => .raises e s trivial
  · exact fun s hs => absurd rfl hs.1

theorem stop_motors_ends {brake_time period : K} (hperiod : 0 < period)
    (hrounds : bus.clock.reach deadline ≤ bus.rounds) (r : Nat)
    (hdeadline : bus.clock.reading r + brake_time ≤ deadline) :
    Triple (fun s => s.readings = r) (stop_motors bus can_ids (.fin brake_time) period)
      fun o _ => o ≠ .running := by
  have hrelease : Halts (each can_ids fun can_id => send bus (encode_release can_id)) :=
    halts_each (fun can_id => send_halts _) can_ids
  refine Triple.weaken (P := fun s => True ∧ s.readings = r) ?_ (fun s hs => ⟨trivial, hs⟩)
    fun _ _ h => h
  refine monotonic_rule (fun _ h => h) ?_
  refine Triple.weaken (P := fun s => s.readings = r + 1) ?_ (fun s hs => hs.2) fun _ _ h => h
  refine bind_rule (brake_ends hdeadline hperiod hrounds (r + 1)) (fun _ s _ => hrelease s) ⟨?_, ?_⟩
  · exact fun e s _ h => by cases h
  · exact fun s hover => by cases hover

/-- On a working bus a stop comes to its end and has sent all that it has to send. -/
theorem stop_motors_stops {brake_time period : K} {t : List (Event K)} (hworking : bus.Working)
    (hne : can_ids ≠ []) (hperiod : 0 < period)
    (hrounds : bus.clock.reach deadline ≤ bus.rounds) {r : Nat}
    (hdeadline : bus.clock.reading r + brake_time ≤ deadline) :
    Triple (fun s => s.trace = t ∧ s.readings ≤ r)
      (stop_motors bus can_ids (.fin brake_time) period)
      fun o s => ∃ k, o = .returned () ∧ s.trace = t ++ (stop_sequence can_ids k).map .sent := by
  rintro s ⟨htrace, hreadings⟩
  have hearlier : bus.clock.reading s.readings + brake_time ≤ deadline := by
    have hmono : bus.clock.reading s.readings ≤ bus.clock.reading r := bus.clock.mono hreadings
    linarith
  have hends : (stop_motors bus can_ids (.fin brake_time) period s).1 ≠ .running :=
    stop_motors_ends hperiod hrounds s.readings hearlier s rfl
  obtain ⟨k, hsends⟩ := stop_motors_sends can_ids hne (.fin brake_time) period s htrace
  refine ⟨k, ?_⟩
  rcases hrun : stop_motors bus can_ids (.fin brake_time) period s with ⟨o, s'⟩
  rw [hrun] at hends hsends
  cases hsends with
  | all _ _ hsent => exact ⟨rfl, hsent⟩
  | failed _ _ _ _ hfailed =>
    obtain ⟨i, hcall⟩ := hfailed
    rw [hworking.calls i] at hcall
    cases hcall
  | going => exact absurd rfl hends

end Stop

section Listen
variable {K : Type} [Field K] [LinearOrder K]

/-- One of the frames is a status of the motor. -/
def Reported (K : Type) [Field K] (frames : List CanFrame) (id : Nat) : Prop :=
  ∃ frame ∈ frames, ∃ status : Status K, decode_status frame = some status ∧ status.can_id = id

/-- `heard` has the motors that reported after the trace `t`. -/
def Collected (t : List (Event K)) (heard : Heard K) (s : Session K) : Prop :=
  ∃ frames, s.trace = t ++ frames.map .received ∧
    ∀ id, id ∈ heard.status.keys ↔ Reported K frames id

omit [LinearOrder K] in
theorem reported_snoc {frames : List CanFrame} {frame : CanFrame} {id : Nat} :
    Reported K (frames ++ [frame]) id ↔ Reported K frames id ∨
      ∃ status : Status K, decode_status frame = some status ∧ status.can_id = id := by
  unfold Reported
  simp only [List.mem_append, List.mem_singleton]
  constructor
  · rintro ⟨frame', h | rfl, hstatus⟩
    · exact .inl ⟨frame', h, hstatus⟩
    · exact .inr hstatus
  · rintro (⟨frame', h, hstatus⟩ | hstatus)
    · exact ⟨frame', .inl h, hstatus⟩
    · exact ⟨frame, .inr rfl, hstatus⟩

omit [LinearOrder K] in
theorem Heard.add_keys (heard : Heard K) (frame : CanFrame) (id : Nat) :
    id ∈ (heard.add frame).status.keys ↔ id ∈ heard.status.keys ∨
      ∃ status : Status K, decode_status frame = some status ∧ status.can_id = id := by
  unfold Heard.add
  cases decode_status (K := K) frame with
  | none =>
    have hkeep : ∀ x : Heard K, x.status = heard.status →
        (id ∈ x.status.keys ↔ id ∈ heard.status.keys ∨
          ∃ status : Status K, (none : Option (Status K)) = some status ∧ status.can_id = id) := by
      intro x hx
      rw [hx]
      exact ⟨.inl, fun h => h.elim (fun h => h) fun ⟨_, h, _⟩ => by cases h⟩
    dsimp only
    split
    · exact hkeep _ rfl
    · exact hkeep _ rfl
  | some status =>
    rw [Dict.mem_keys_set]
    constructor
    · rintro (rfl | h)
      · exact .inr ⟨status, rfl, rfl⟩
      · exact .inl h
    · rintro (h | ⟨status', h, rfl⟩)
      · exact .inr h
      · cases h
        exact .inl rfl

omit [LinearOrder K] in
/-- A received frame adds its motor, whether or not the kernel drops other frames. -/
theorem Heard.receive_keys (heard : Heard K) (status_only : Bool) (frame : CanFrame) :
    ∃ heard', heard.receive status_only (some frame) = .inr heard' ∧
      ∀ id, id ∈ heard'.status.keys ↔ id ∈ heard.status.keys ∨
        ∃ status : Status K, decode_status frame = some status ∧ status.can_id = id := by
  by_cases hdropped : status_only ∧ frame.id >>> 8 ≠ STATUS
  · have hnone : decode_status (K := K) frame = none := by
      unfold decode_status
      split
      · exact if_pos hdropped.2
      · rfl
    refine ⟨heard, if_pos hdropped, fun id => ⟨.inl, ?_⟩⟩
    rintro (h | ⟨status, h, -⟩)
    · exact h
    · rw [hnone] at h
      cases h
  · exact ⟨heard.add frame, if_neg hdropped, heard.add_keys frame⟩

/-- What a call of `listen` from the trace `t` returns. -/
def Listened (t : List (Event K)) (o : Outcome (Exception K) (Heard K)) (s : Session K) : Prop :=
  ∃ heard, o = .returned heard ∧ Collected t heard s

variable {bus : Bus K} {t : List (Event K)} {deadline : K}

theorem recv_collects (hworking : bus.Working) {timeout : Dbl K} (status_only : Bool)
    (heard : Heard K) (r : Nat) (hbefore : bus.clock.reading r < deadline) :
    Triple (fun s => Collected t heard s ∧ s.readings = r + 1)
      (do let frame ← recv bus timeout; pure (heard.receive status_only frame))
      (Polled bus deadline (Collected t) (Listened t) r) := by
  refine bind_rule (R := fun o s => s.readings = r + 1 ∧
      (o = .returned none ∧ Collected t heard s ∨
        ∃ frame, o = .returned (some frame) ∧ ∃ frames,
          s.trace = t ++ (frames ++ [frame]).map .received ∧
            ∀ id, id ∈ heard.status.keys ↔ Reported K frames id)) ?_ ?_ ⟨?_, ?_⟩
  · rintro s ⟨hcollected, hreadings⟩
    unfold recv
    split
    · exact ⟨hreadings, .inl ⟨rfl, hcollected⟩⟩
    · unfold await_frame
      rcases hworking.receives s.receives with ⟨frame, hreceived⟩ | hreceived
      · obtain ⟨frames, htrace, hkeys⟩ := hcollected
        rw [hreceived]
        refine ⟨hreadings, .inr ⟨frame, rfl, frames, ?_, hkeys⟩⟩
        simp [htrace]
      · rw [hreceived]
        exact ⟨hreadings, .inl ⟨rfl, hcollected⟩⟩
  · rintro frame s ⟨hreadings, ⟨hnone, hcollected⟩ | ⟨frame', hsome, frames, htrace, hkeys⟩⟩
    · cases hnone
      exact .leaves heard s ⟨heard, rfl, hcollected⟩ hreadings.le
    · cases hsome
      obtain ⟨heard', heq, hkeys'⟩ := heard.receive_keys status_only frame'
      rw [heq]
      refine .again heard' s ⟨frames ++ [frame'], htrace, fun id => ?_⟩ hreadings hbefore
      rw [hkeys', hkeys, reported_snoc]
  · rintro e s ⟨-, ⟨h, -⟩ | ⟨_, h, -⟩⟩
    · cases h
    · cases h
  · rintro s ⟨-, ⟨h, -⟩ | ⟨_, h, -⟩⟩
    · cases h
    · cases h

theorem listen_round_polled [IsStrictOrderedRing K] (hworking : bus.Working) (wanted : List Nat) (status_only : Bool)
    (heard : Heard K) (r : Nat) : Triple (fun s => Collected t heard s ∧ s.readings = r)
      (listen_round bus (.fin deadline) wanted status_only heard)
      (Polled bus deadline (Collected t) (Listened t) r) := by
  unfold listen_round
  split
  · rintro s ⟨hcollected, rfl⟩
    exact .leaves heard s ⟨heard, rfl, hcollected⟩ (Nat.le_succ _)
  · refine monotonic_rule (fun _ h => h) ?_
    dsimp only
    split
    · rintro s ⟨hcollected, hreadings⟩
      exact .leaves heard s ⟨heard, rfl, hcollected⟩ hreadings.le
    · next hleft =>
      have hpos : 0 < deadline - bus.clock.reading r := by simpa using hleft
      exact recv_collects hworking status_only heard r (sub_pos.mp hpos)

/-- Listening for a finite time on a working bus ends with the motors that reported. -/
theorem listen_hears [IsStrictOrderedRing K] (hworking : bus.Working) {duration : K}
    {wanted : List Nat} {status_only : Bool} {r : Nat}
    (hdeadline : bus.clock.reading r + duration = deadline)
    (hrounds : bus.clock.reach deadline ≤ bus.rounds) :
    Triple (fun s => s.trace = t ∧ s.readings = r) (listen bus (.fin duration) wanted status_only)
      fun o s => Listened t o s ∧ s.readings ≤ max (r + 1) (bus.clock.reach deadline) + 2 := by
  subst hdeadline
  refine monotonic_rule (fun _ h => h) ?_
  refine open_rule hworking (fun _ h => h) ?_
  -- at first the loop has heard nothing
  have hstart : ∀ s : Session K, s.trace = t → Collected t { elapsed := 0 } s := by
    intro s htrace
    refine ⟨[], htrace.trans (List.append_nil t).symm, fun id => ?_⟩
    simp [Dict.keys, Reported]
  have hloop : Triple (fun s => s.trace = t ∧ s.readings = r + 1)
      (forever (listen_round bus _ wanted status_only) (bus.rounds + 1) { elapsed := 0 })
      (Over bus (bus.clock.reading r + duration) (Listened t) (r + 1)) :=
    (poll_rule hrounds (listen_round_polled hworking wanted status_only) _).weaken
      (fun s hs => ⟨hstart s hs.1, hs.2⟩) fun _ _ h => h
  refine bind_rule hloop (fun heard => ?_) ⟨?_, ?_⟩
  · rintro s ⟨_, _, ⟨heard, hheard, frames, htrace, hkeys⟩, hreadings⟩
    cases hheard
    exact ⟨⟨_, rfl, frames, htrace, hkeys⟩, Nat.succ_le_succ hreadings⟩
  · rintro e s hover
    cases hover with
    | raised _ _ hlistened =>
      obtain ⟨_, h, -⟩ := hlistened
      cases h
  · exact fun s hover => by cases hover

end Listen

end IotRobot.Can
