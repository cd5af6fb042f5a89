import IotRobot.Web.Authority

/-!
# The E-stop and its topic

The messages on `/e_stop`, the node's own and those of other publishers, reach the node and
twist_mux in one order. The node applies what it does not take for an echo. Its state
agrees with the topic as long as every message that arrives while own values are
outstanding equals the oldest or the newest of these.
-/

namespace IotRobot.Web

open Lib

set_option autoImplicit false

/-- A message on `/e_stop`: an own one has the clock reading at which it was sent. -/
inductive EstopMessage (K : Type) where
  | own (data : Bool) (time : K)
  | foreign (data : Bool)
  deriving DecidableEq

namespace EstopMessage
variable {K : Type}

def data : EstopMessage K → Bool
  | .own data _ => data
  | .foreign data => data

/-- The value of an own message. -/
def own_data : EstopMessage K → Option Bool
  | .own data _ => some data
  | .foreign _ => none

/-- An own message comes back within the echo timeout. -/
def InTime [Field K] [LinearOrder K] (timeout now : K) : EstopMessage K → Prop
  | .own _ time => now - time ≤ timeout
  | .foreign _ => True

instance [Field K] [LinearOrder K] (timeout now : K) (message : EstopMessage K) :
    Decidable (message.InTime timeout now) :=
  match message with
  | .own _ time => inferInstanceAs (Decidable (now - time ≤ timeout))
  | .foreign _ => .isTrue trivial

end EstopMessage

/-- The node with the topic: what it and twist_mux have received, and what is still on its
way to both. -/
structure Topic (K Client : Type) where
  node : Node K Client
  delivered : List (EstopMessage K) := []
  pending : List (EstopMessage K) := []

/-- What can happen: a call that is not a delivery, another publisher's message, or the
delivery of the next message. -/
inductive TopicEvent (K Client V : Type) where
  | call (e : Event K Client V)
  | publish (data : Bool)
  | deliver (now : K)

/-- The state of a lock that obeys the last message: released before the first. -/
def locked {K : Type} (order : List (EstopMessage K)) : Bool :=
  (order.getLast?.map EstopMessage.data).getD false

/-- The `/e_stop` messages among those published. -/
def estops {K : Type} (messages : List (Message K)) : List Bool :=
  messages.filterMap fun message =>
    match message with
    | .estop data => some data
    | _ => none

section Steps
variable {K Client V : Type} [Field K] [LinearOrder K] [FloorRing K] [DecidableEq Client]
variable (c : Parameters K) (float : V → FloatResult K)

def own_messages (now : K) (messages : List (Message K)) : List (EstopMessage K) :=
  (estops messages).map fun data => .own data now

/-- One event on the topic. -/
def topic_next (s : Topic K Client) : TopicEvent K Client V → Topic K Client → Prop
  | .call e, s' =>
    (∀ engaged, e.op ≠ .on_estop engaged) ∧ next c float s.node e s'.node ∧
      s'.delivered = s.delivered ∧
      s'.pending = s.pending ++ own_messages e.now (sent_in s.node.bridge s'.node.bridge)
  | .publish data, s' => s' = { s with pending := s.pending ++ [.foreign data] }
  | .deliver now, s' =>
    ∃ message rest, s.pending = message :: rest ∧
      message.InTime s.node.bridge.estop_echo.timeout now ∧
      next c float s.node ⟨now, .on_estop message.data⟩ s'.node ∧
      s'.delivered = s.delivered ++ [message] ∧ s'.pending = rest

def topic_start (t : K) : Topic K Client where
  node := start c t
  pending := own_messages t (start c t : Node K Client).bridge.sent

/-- Once everything published has been delivered, the node agrees with twist_mux. -/
def Mirrors (s : Topic K Client) : Prop :=
  s.pending = [] → s.node.bridge.estop = locked s.delivered

/-- The own values that are outstanding at `now`. -/
def outstanding_at (now : K) (s : RobotBridge K Client) : List Bool :=
  (s.estop_echo.unexpired now).map Prod.fst

/-- A delivered message equals the oldest or the newest outstanding own value, or none is
outstanding. -/
def Settled (s : Topic K Client) (e : TopicEvent K Client V) (_ : Topic K Client) : Prop :=
  match e with
  | .deliver now => ∀ message ∈ s.pending.head?,
    outstanding_at now s.node.bridge = [] ∨
    (outstanding_at now s.node.bridge).head? = some message.data ∨
    (outstanding_at now s.node.bridge).getLast? = some message.data
  | _ => True

/-- What a call other than a delivery does to the E-stop: nothing, or it sets it and says
so. -/
inductive EstopStep (now : K) (s s' : RobotBridge K Client) : Prop
  | silent (hs : s'.estop = s.estop) (he : s'.estop_echo = s.estop_echo)
      (hm : estops (sent_in s s') = [])
  | spoken (data : Bool) (hs : s'.estop = data) (he : s'.estop_echo = s.estop_echo.sent data now)
      (hm : estops (sent_in s s') = [data])

/-- What the delivery of `engaged` at `now` does: nothing is outstanding and it applies,
it is the oldest outstanding value and is an echo, or it is not and applies. -/
inductive Received (now : K) (engaged : Bool) (s s' : RobotBridge K Client) : Prop
  | clear (hq : s.estop_echo.unexpired now = []) (hs : s'.estop = engaged)
      (ho : s'.estop_echo.outstanding = [])
  | echo (entry : Bool × K) (rest : List (Bool × K))
      (hq : s.estop_echo.unexpired now = entry :: rest) (hv : entry.1 = engaged)
      (hs : s'.estop = s.estop) (ho : s'.estop_echo.outstanding = rest)
  | applied (entry : Bool × K) (rest : List (Bool × K))
      (hq : s.estop_echo.unexpired now = entry :: rest) (hv : entry.1 ≠ engaged)
      (hs : s'.estop = engaged) (ho : s'.estop_echo.outstanding = entry :: rest)

omit [FloorRing K] [DecidableEq Client] in
theorem on_estop_received (now : K) (engaged : Bool) (s : RobotBridge K Client) :
    Received now engaged s (s.on_estop now engaged) := by
  -- a message that is not an echo leaves its value
  have happly : ∀ (filter : EchoFilter K), s.estop_echo.is_echo engaged now = (false, filter) →
      (s.on_estop now engaged).estop = engaged ∧
        (s.on_estop now engaged).estop_echo = filter := by
    intro filter he
    unfold RobotBridge.on_estop
    simp only [he, Bool.false_eq_true, ↓reduceIte]
    split
    · rename_i heq
      exact ⟨heq.symm, rfl⟩
    · cases engaged <;> exact ⟨rfl, rfl⟩
  cases hq : s.estop_echo.unexpired now with
  | nil =>
    have he : s.estop_echo.is_echo engaged now =
        (false, { s.estop_echo with outstanding := [] }) := by
      unfold EchoFilter.is_echo
      rw [hq]
    obtain ⟨hs, hecho⟩ := happly _ he
    exact .clear hq hs (by rw [hecho])
  | cons entry rest =>
    by_cases hv : entry.1 = engaged
    · have he : s.estop_echo.is_echo engaged now =
          (true, { s.estop_echo with outstanding := rest }) := by
        unfold EchoFilter.is_echo
        rw [hq]
        exact if_pos hv
      have hs : s.on_estop now engaged =
          { s with estop_echo := { s.estop_echo with outstanding := rest } } := by
        unfold RobotBridge.on_estop
        simp only [he, ↓reduceIte]
      exact .echo entry rest hq hv (by rw [hs]) (by rw [hs])
    · have he : s.estop_echo.is_echo engaged now =
          (false, { s.estop_echo with outstanding := entry :: rest }) := by
        unfold EchoFilter.is_echo
        rw [hq]
        exact if_neg hv
      obtain ⟨hs, hecho⟩ := happly _ he
      exact .applied entry rest hq hv hs (by rw [hecho])

omit [FloorRing K] [DecidableEq Client] in
/-- A call that leaves the E-stop alone and says nothing about it. -/
theorem EstopStep.of_sends {e : Event K Client V} {s s' : RobotBridge K Client}
    {new : List (Message K)} (hs : s'.estop = s.estop) (he : s'.estop_echo = s.estop_echo)
    (hsends : Sends c e s new) (happ : s'.sent = s.sent ++ new)
    (hop : e.op ≠ .on_estop_timer ∧ e.op ≠ .on_estop_startup ∧
      ∀ engaged, e.op ≠ .set_estop engaged) : EstopStep e.now s s' := by
  refine .silent hs he ?_
  rw [sent_in_append happ]
  cases hsends with
  | nothing => rfl
  | gizmo yaw pitch => rfl
  | zero => rfl
  | drive command _ _ => rfl
  | estop h => exact absurd h (not_or.mpr ⟨hop.1, hop.2.1⟩)
  | set_estop engaged h => exact absurd h (hop.2.2 engaged)

omit [Field K] [LinearOrder K] [FloorRing K] [DecidableEq Client] in
theorem publish_estop_spoken (now : K) {s t : RobotBridge K Client} (hs : t.sent = s.sent)
    (he : t.estop_echo = s.estop_echo) : EstopStep now s (t.publish_estop now) := by
  refine .spoken t.estop rfl (by rw [← he]; rfl) ?_
  have happ : (t.publish_estop now).sent = s.sent ++ [.estop t.estop] := by
    rw [← hs]
    rfl
  rw [sent_in_append happ]
  rfl

/-- The calls that have nothing to do with the E-stop. -/
theorem perform_same_estop (e : Event K Client V) (s : RobotBridge K Client)
    (hop : e.op ≠ .on_estop_timer ∧ e.op ≠ .on_estop_startup ∧
      (∀ engaged, e.op ≠ .set_estop engaged) ∧ ∀ engaged, e.op ≠ .on_estop engaged) :
    (perform c float e s).estop = s.estop ∧ (perform c float e s).estop_echo = s.estop_echo := by
  have huntouched := (perform_untouched c float e s).estop
  obtain ⟨now, op⟩ := e
  cases op with
  | on_estop engaged => exact absurd rfl (hop.2.2.2 engaged)
  | set_estop engaged => exact absurd rfl (hop.2.2.1 engaged)
  | on_estop_timer => exact absurd rfl hop.1
  | on_estop_startup => exact absurd rfl hop.2.1
  | _ => exact huntouched rfl

theorem perform_estop (e : Event K Client V) (s : RobotBridge K Client)
    (hop : ∀ engaged, e.op ≠ .on_estop engaged) :
    EstopStep e.now s (perform c float e s) := by
  obtain ⟨now, op⟩ := e
  by_cases hspeaks : op = .on_estop_timer ∨ op = .on_estop_startup ∨
      ∃ engaged, op = .set_estop engaged
  · rcases hspeaks with rfl | rfl | ⟨engaged, rfl⟩
    · simp only [perform, RobotBridge.on_estop_timer]
      split
      · exact publish_estop_spoken now rfl rfl
      · exact .silent rfl rfl (by rw [sent_in_append (List.append_nil _).symm]; rfl)
    · simp only [perform, RobotBridge.on_estop_startup]
      split
      · exact publish_estop_spoken now rfl rfl
      · exact .silent rfl rfl (by rw [sent_in_append (List.append_nil _).symm]; rfl)
    · refine .spoken engaged (by cases engaged <;> rfl) (by cases engaged <;> rfl) ?_
      rw [perform, sent_in_append (set_estop_sent now engaged s)]
      cases engaged <;> rfl
  · obtain ⟨h1, h23⟩ := not_or.mp hspeaks
    obtain ⟨h2, h3⟩ := not_or.mp h23
    have h3 := not_exists.mp h3
    obtain ⟨hs, he⟩ := perform_same_estop c float ⟨now, op⟩ s ⟨h1, h2, h3, hop⟩
    obtain ⟨new, hsends, happ⟩ := perform_sends c float ⟨now, op⟩ s
    exact .of_sends c hs he hsends happ ⟨h1, h2, h3⟩

/-- The own values that the filter still expects. -/
def expected (s : RobotBridge K Client) : List Bool := s.estop_echo.outstanding.map Prod.fst

/-- The filter expects the latest of the own messages that are on their way. The E-stop is
the newest value it expects, or twist_mux's state if it expects none. -/
structure EstopInv (s : Topic K Client) : Prop where
  suffix : expected s.node.bridge <:+ s.pending.filterMap EstopMessage.own_data
  newest : ∀ data, (expected s.node.bridge).getLast? = some data → s.node.bridge.estop = data
  settled : expected s.node.bridge = [] → s.node.bridge.estop = locked s.delivered

omit [Field K] [LinearOrder K] [FloorRing K] [DecidableEq Client] in
theorem EstopInv.mirrors {s : Topic K Client} (h : EstopInv s) : Mirrors s := by
  intro hpending
  apply h.settled
  have hsuffix := h.suffix
  rw [hpending] at hsuffix
  exact List.suffix_nil.mp hsuffix

omit [Field K] [LinearOrder K] [FloorRing K] in
theorem own_messages_data (now : K) (messages : List (Message K)) :
    (own_messages now messages).filterMap EstopMessage.own_data = estops messages := by
  unfold own_messages
  rw [List.filterMap_map]
  exact List.filterMap_some

omit [LinearOrder K] [FloorRing K] [DecidableEq Client] in
theorem EstopInv.start (t : K) : EstopInv (topic_start c t : Topic K Client) := by
  have hinit : (expected (RobotBridge.init c t : RobotBridge K Client) = [true] ∧
      (RobotBridge.init c t : RobotBridge K Client).estop = true ∧
      estops (RobotBridge.init c t : RobotBridge K Client).sent = [true]) ∨
      (expected (RobotBridge.init c t : RobotBridge K Client) = [] ∧
      (RobotBridge.init c t : RobotBridge K Client).estop = false) := by
    unfold RobotBridge.init
    cases c.start_estopped with
    | true => exact .inl ⟨rfl, rfl, rfl⟩
    | false => exact .inr ⟨rfl, rfl⟩
  rcases hinit with ⟨hq, hs, hm⟩ | ⟨hq, hs⟩
  · refine ⟨?_, fun data h => ?_, fun h => ?_⟩
    · change expected (RobotBridge.init c t : RobotBridge K Client) <:+
        (own_messages t (RobotBridge.init c t : RobotBridge K Client).sent).filterMap _
      have hsame : expected (RobotBridge.init c t : RobotBridge K Client) =
          (own_messages t (RobotBridge.init c t : RobotBridge K Client).sent).filterMap
            EstopMessage.own_data := by
        rw [own_messages_data, hm, hq]
      exact hsame ▸ List.suffix_refl _
    · change (expected (RobotBridge.init c t : RobotBridge K Client)).getLast? = _ at h
      rw [hq] at h
      exact hs.trans (Option.some.inj h)
    · change expected (RobotBridge.init c t : RobotBridge K Client) = [] at h
      rw [hq] at h
      cases h
  · refine ⟨?_, fun data h => ?_, fun _ => hs⟩
    · change expected (RobotBridge.init c t : RobotBridge K Client) <:+ _
      rw [hq]
      exact List.nil_suffix
    · change (expected (RobotBridge.init c t : RobotBridge K Client)).getLast? = _ at h
      rw [hq] at h
      cases h

/-- A call keeps the invariant: what it says is expected and on its way. -/
theorem EstopInv.call {s s' : Topic K Client} {e : Event K Client V} (h : EstopInv s)
    (hn : topic_next c float s (.call e) s') : EstopInv s' := by
  obtain ⟨hop, ⟨_, hnode⟩, hdelivered, hpending⟩ := hn
  have hstep := perform_estop c float e s.node.bridge hop
  rw [hnode] at hpending
  have hown : s'.pending.filterMap EstopMessage.own_data =
      s.pending.filterMap EstopMessage.own_data ++
        estops (sent_in s.node.bridge (perform c float e s.node.bridge)) := by
    rw [hpending, List.filterMap_append, own_messages_data]
  cases hstep with
  | silent hs he hm =>
    have hq : expected s'.node.bridge = expected s.node.bridge := by
      rw [hnode]
      exact congrArg (fun f => f.outstanding.map Prod.fst) he
    have hestop : s'.node.bridge.estop = s.node.bridge.estop := by
      rw [hnode]
      exact hs
    refine ⟨?_, fun data hd => ?_, fun hd => ?_⟩
    · rw [hown, hm, List.append_nil, hq]
      exact h.suffix
    · rw [hestop]
      exact h.newest data (hq ▸ hd)
    · rw [hestop, hdelivered]
      exact h.settled (hq ▸ hd)
  | spoken data hs he hm =>
    have hq : expected s'.node.bridge = expected s.node.bridge ++ [data] := by
      have hecho : s'.node.bridge.estop_echo = s.node.bridge.estop_echo.sent data e.now := by
        rw [hnode]
        exact he
      unfold expected
      rw [hecho]
      exact List.map_append
    have hestop : s'.node.bridge.estop = data := by
      rw [hnode]
      exact hs
    refine ⟨?_, fun newest hd => ?_, fun hd => ?_⟩
    · rw [hown, hm, hq]
      obtain ⟨earlier, hearlier⟩ := h.suffix
      exact ⟨earlier, by rw [← List.append_assoc, hearlier]⟩
    · rw [hq, List.getLast?_concat] at hd
      exact hestop.trans (Option.some.inj hd)
    · rw [hq] at hd
      exact absurd hd (List.append_ne_nil_of_right_ne_nil _ (List.cons_ne_nil _ _))

/-- Another publisher's message is on its way. -/
theorem EstopInv.publish {s s' : Topic K Client} {data : Bool} (h : EstopInv s)
    (hn : topic_next c float s (.publish data : TopicEvent K Client V) s') : EstopInv s' := by
  change s' = _ at hn
  subst hn
  refine ⟨?_, h.newest, h.settled⟩
  rw [List.filterMap_append]
  have hnone : [EstopMessage.foreign data].filterMap (EstopMessage.own_data (K := K)) = [] := rfl
  rw [hnone, List.append_nil]
  exact h.suffix

omit [FloorRing K] [DecidableEq Client] in
/-- Forgetting what is too old leaves the latest of what is expected. -/
theorem outstanding_suffix (now : K) (s : RobotBridge K Client) :
    outstanding_at now s <:+ expected s :=
  (List.dropWhile_suffix _).map _

omit [FloorRing K] [DecidableEq Client] in
theorem outstanding_newest {now : K} {s : RobotBridge K Client} {data : Bool}
    (h : (outstanding_at now s).getLast? = some data) : (expected s).getLast? = some data := by
  obtain ⟨earlier, hearlier⟩ := outstanding_suffix now s
  rw [← hearlier, List.getLast?_append, h]
  rfl

omit [Field K] [LinearOrder K] [FloorRing K] in
theorem locked_concat (order : List (EstopMessage K)) (message : EstopMessage K) :
    locked (order ++ [message]) = message.data := by
  unfold locked
  rw [List.getLast?_concat]
  rfl

/-- A delivery keeps the invariant if it meets the condition. -/
theorem EstopInv.deliver {s s' : Topic K Client} {now : K} (h : EstopInv s)
    (hn : topic_next c float s (.deliver now : TopicEvent K Client V) s')
    (hsettled : Settled s (.deliver now : TopicEvent K Client V) s') : EstopInv s' := by
  obtain ⟨message, rest, hpending, _, ⟨_, hnode⟩, hdelivered, hrest⟩ := hn
  have hcond := hsettled message (by rw [hpending]; rfl)
  have hsuffix := (outstanding_suffix now s.node.bridge).trans h.suffix
  have hreceived := on_estop_received now message.data s.node.bridge
  have hbridge : s'.node.bridge = s.node.bridge.on_estop now message.data := by
    rw [hnode]
    rfl
  rw [← hbridge] at hreceived
  have hlock : locked s'.delivered = message.data := by rw [hdelivered, locked_concat]
  -- an own message was either expected next or is no longer expected
  have hown : outstanding_at now s.node.bridge <:+ rest.filterMap EstopMessage.own_data ∨
      outstanding_at now s.node.bridge =
        message.data :: rest.filterMap EstopMessage.own_data := by
    rw [hpending] at hsuffix
    cases message with
    | foreign data => exact .inl hsuffix
    | own data time => exact (List.suffix_cons_iff.mp hsuffix).symm
  cases hreceived with
  | clear hq hs ho =>
    have hexp : expected s'.node.bridge = [] := by
      unfold expected
      rw [ho]
      rfl
    refine ⟨?_, fun data hd => ?_, fun _ => hs.trans hlock.symm⟩
    · rw [hexp]
      exact List.nil_suffix
    · rw [hexp] at hd
      cases hd
  | echo entry queue hq hv hs ho =>
    have hout : outstanding_at now s.node.bridge = message.data :: queue.map Prod.fst := by
      unfold outstanding_at
      rw [hq, List.map_cons, hv]
    have hexp : expected s'.node.bridge = queue.map Prod.fst := by
      unfold expected
      rw [ho]
    refine ⟨?_, fun data hd => ?_, fun hd => ?_⟩
    · rw [hexp, hrest]
      rw [hout] at hown
      rcases hown with hown | hown
      · exact (List.suffix_cons _ _).trans hown
      · exact (List.cons.inj hown).2 ▸ List.suffix_refl _
    · rw [hexp] at hd
      have hlast : (outstanding_at now s.node.bridge).getLast? = some data := by
        rw [hout, List.getLast?_cons, hd]
        rfl
      exact hs.trans (h.newest data (outstanding_newest hlast))
    · rw [hexp] at hd
      have hlast : (outstanding_at now s.node.bridge).getLast? = some message.data := by
        rw [hout, hd]
        rfl
      rw [hs, hlock]
      exact h.newest message.data (outstanding_newest hlast)
  | applied entry queue hq hv hs ho =>
    have hout : outstanding_at now s.node.bridge = entry.1 :: queue.map Prod.fst := by
      unfold outstanding_at
      rw [hq, List.map_cons]
    have hexp : expected s'.node.bridge = outstanding_at now s.node.bridge := by
      unfold expected outstanding_at
      rw [ho, hq]
    refine ⟨?_, fun data hd => ?_, fun hd => ?_⟩
    · rw [hexp, hrest]
      rcases hown with hown | hown
      · exact hown
      · rw [hout] at hown
        exact absurd (List.cons.inj hown).1 hv
    · rw [hexp] at hd
      rcases hcond with hnone | holdest | hnewest
      · rw [hout] at hnone
        cases hnone
      · rw [hout] at holdest
        exact absurd (Option.some.inj holdest) hv
      · exact hs.trans (Option.some.inj (hnewest.symm.trans hd))
    · rw [hexp, hout] at hd
      cases hd

/-- In every run in which each delivered message equals the oldest or the newest outstanding
own value, or none is outstanding, the node agrees with twist_mux whenever everything
published has been delivered. -/
theorem estop_mirrors_topic (t : K) (es : List (TopicEvent K Client V)) {s : Topic K Client}
    (hr : Run (fun s e s' => topic_next c float s e s' ∧ Settled s e s') (topic_start c t) es s) :
    Mirrors s := by
  refine EstopInv.mirrors (hr.invariant EstopInv (EstopInv.start c t) ?_)
  rintro a b e hinv ⟨hn, hsettled⟩
  cases e with
  | call e => exact hinv.call c float hn
  | publish data => exact hinv.publish c float hn
  | deliver now => exact hinv.deliver c float hn hsettled

/-- The topic after an event; nothing happens when there is nothing to deliver. -/
def topic_step (s : Topic K Client) : TopicEvent K Client V → Topic K Client
  | .call e =>
    let node : Node K Client := ⟨e.now, perform c float e s.node.bridge⟩
    { s with
      node := node
      pending := s.pending ++ own_messages e.now (sent_in s.node.bridge node.bridge) }
  | .publish data => { s with pending := s.pending ++ [.foreign data] }
  | .deliver now =>
    match s.pending with
    | [] => s
    | message :: rest =>
      { node := ⟨now, perform c float ⟨now, .on_estop message.data⟩ s.node.bridge⟩
        delivered := s.delivered ++ [message]
        pending := rest }

theorem topic_next_call {s : Topic K Client} {e : Event K Client V} (hnow : s.node.clock ≤ e.now)
    (hop : ∀ engaged, e.op ≠ .on_estop engaged) :
    topic_next c float s (.call e) (topic_step c float s (.call e)) :=
  ⟨hop, ⟨hnow, rfl⟩, rfl, rfl⟩

theorem topic_next_deliver {s : Topic K Client} {now : K} (message : EstopMessage K)
    (rest : List (EstopMessage K)) (hnow : s.node.clock ≤ now) (hp : s.pending = message :: rest)
    (ht : message.InTime s.node.bridge.estop_echo.timeout now) :
    topic_next c float s (.deliver now : TopicEvent K Client V)
      (topic_step c float s (.deliver now : TopicEvent K Client V)) := by
  refine ⟨message, rest, hp, ht, ⟨hnow, ?_⟩, ?_, ?_⟩ <;> simp only [topic_step, hp]

end Steps

abbrev topic_reached (es : List (TopicEvent Rat String (Dbl Rat))) : Topic Rat String :=
  es.foldl (topic_step web_controller_yaml float_of) (topic_start web_controller_yaml 0)

/-- A page engages the E-stop and the node hears its own message. -/
def engage_and_hear : List (TopicEvent Rat String (Dbl Rat)) :=
  [.call ⟨0, .set_estop true⟩, .deliver (1 / 10)]

theorem engage_and_hear_mirrors :
    (topic_reached engage_and_hear).pending = [] ∧ Mirrors (topic_reached engage_and_hear) := by
  refine ⟨by decide +kernel, ?_⟩
  refine estop_mirrors_topic web_controller_yaml float_of 0 engage_and_hear ?_
  refine (Run.nil.snoc ⟨topic_next_call _ _ (by decide +kernel) (fun _ h => by cases h),
    trivial⟩).snoc ⟨topic_next_deliver _ _ (.own true 0) [] (by decide +kernel)
      (by decide +kernel) (by decide +kernel),
      fun message hmem => .inr (.inl ?_)⟩
  obtain rfl := Option.mem_some_iff.mp hmem
  decide +kernel

/-- Another node's release is on its way when a page engages the E-stop. It arrives first and
applies; the own message is an echo. -/
def release_crosses : List (TopicEvent Rat String (Dbl Rat)) :=
  [.publish false, .call ⟨0, .set_estop true⟩, .deliver (1 / 10), .deliver (1 / 5)]

/-- Everything is delivered, twist_mux is locked, and the node takes the E-stop to be
released. -/
theorem release_crosses_contradicts :
    Run (topic_next web_controller_yaml float_of) (topic_start web_controller_yaml 0)
        release_crosses (topic_reached release_crosses) ∧
      (topic_reached release_crosses).pending = [] ∧
      locked (topic_reached release_crosses).delivered = true ∧
      (topic_reached release_crosses).node.bridge.estop = false := by
  refine ⟨?_, by decide +kernel, by decide +kernel, by decide +kernel⟩
  exact (((Run.nil.snoc rfl).snoc (topic_next_call _ _ (by decide +kernel)
    (fun _ h => by cases h))).snoc (topic_next_deliver _ _ (.foreign false)
      [.own true 0] (by decide +kernel) (by decide +kernel) trivial)).snoc
    (topic_next_deliver _ _ (.own true 0) [] (by decide +kernel) (by decide +kernel)
      (by decide +kernel))

end IotRobot.Web
