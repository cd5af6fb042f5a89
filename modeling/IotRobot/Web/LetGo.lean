import Mathlib.Data.List.Nodup
import IotRobot.Web.Console
import IotRobot.Web.Owner

/-!
# Letting go of the controls

The page streams commands while a control is held and ends the stream with a release. The
messages of a connection keep their order, so a connection whose messages have all been
handled drives the robot only while the page streams, and a connection that the page has lost
until the server notices.
-/

namespace IotRobot.Web

open Lib

set_option autoImplicit false

section Messages
variable {Client V : Type}

def ClientMessage.drives : ClientMessage V → Bool
  | .drive _ _ _ => true
  | _ => false

/-- Whether the last command or release is a command, after messages that left it at `held`. -/
def streaming (held : Bool) (messages : List (ClientMessage V)) : Bool :=
  messages.foldl (fun held message =>
    match message with
    | .drive _ _ _ => true
    | .release => false
    | _ => held) held

@[simp] theorem streaming_nil (held : Bool) : streaming held ([] : List (ClientMessage V)) = held := rfl

theorem streaming_append (held : Bool) (first last : List (ClientMessage V)) :
    streaming held (first ++ last) = streaming (streaming held first) last := List.foldl_append

@[simp] theorem streaming_estops (held : Bool) (engaged : List Bool) :
    streaming held (engaged.map (ClientMessage.estop (V := V))) = held := by
  induction engaged with
  | nil => rfl
  | cons e engaged ih => exact ih

theorem estops_quiet (engaged : List Bool) :
    ∀ m ∈ engaged.map (ClientMessage.estop (V := V)), m.drives = false := by
  intro m hm
  obtain ⟨e, -, rfl⟩ := List.mem_map.mp hm
  rfl

/-- A stream that has ended was ended by a release. -/
theorem release_of_ended {messages : List (ClientMessage V)} (h : streaming true messages = false) :
    .release ∈ messages := by
  induction messages with
  | nil => simp at h
  | cons message messages ih =>
    cases message with
    | release => simp
    | drive linear angular speed => exact List.mem_cons_of_mem _ (ih h)
    | estop engaged => exact List.mem_cons_of_mem _ (ih h)
    | gizmo yaw pitch => exact List.mem_cons_of_mem _ (ih h)
    | mode mode => exact List.mem_cons_of_mem _ (ih h)

/-- Only a command begins a stream. -/
theorem idle_of_quiet {messages : List (ClientMessage V)} (h : ∀ m ∈ messages, m.drives = false) :
    streaming false messages = false := by
  induction messages with
  | nil => rfl
  | cons message messages ih =>
    have hrest := ih fun m hm => h m (List.mem_cons_of_mem _ hm)
    cases message with
    | drive linear angular speed =>
      have hfirst := h (.drive linear angular speed) List.mem_cons_self
      cases hfirst
    | release => exact hrest
    | estop engaged => exact hrest
    | gizmo yaw pitch => exact hrest
    | mode mode => exact hrest

/-- Messages are sent over the newest connection. -/
def say (messages : List (ClientMessage V)) (sockets : List (Socket Client V)) :
    List (Socket Client V) :=
  sockets.modify (sockets.length - 1) fun socket => { socket with sent := socket.sent ++ messages }

@[simp] theorem say_concat (messages : List (ClientMessage V)) (earlier : List (Socket Client V))
    (socket : Socket Client V) :
    say messages (earlier ++ [socket]) =
      earlier ++ [{ socket with sent := socket.sent ++ messages }] := by
  have hlast : (earlier ++ [socket]).length - 1 = earlier.length := by simp
  rw [say, hlast]
  clear hlast
  induction earlier with
  | nil => rfl
  | cons first earlier ih => exact congrArg (first :: ·) ih

@[simp] theorem say_nil (sockets : List (Socket Client V)) : say [] sockets = sockets := by
  rcases sockets.eq_nil_or_concat' with rfl | ⟨earlier, socket, rfl⟩
  · rfl
  · simp

theorem say_append (first last : List (ClientMessage V)) (sockets : List (Socket Client V)) :
    say last (say first sockets) = say (first ++ last) sockets := by
  rcases sockets.eq_nil_or_concat' with rfl | ⟨earlier, socket, rfl⟩
  · rfl
  · simp

@[simp] theorem say_clients (messages : List (ClientMessage V)) (sockets : List (Socket Client V)) :
    (say messages sockets).map Socket.client = sockets.map Socket.client := by
  rcases sockets.eq_nil_or_concat' with rfl | ⟨earlier, socket, rfl⟩
  · rfl
  · simp

/-- What has been handled of a connection stays handled. -/
theorem mem_say {messages : List (ClientMessage V)} {sockets : List (Socket Client V)}
    (hhandled : ∀ socket ∈ sockets, socket.handled ≤ socket.sent.length) {socket : Socket Client V}
    (h : socket ∈ sockets) : ∃ socket' ∈ say messages sockets,
      socket'.client = socket.client ∧ socket'.served = socket.served ∧ socket'.done = socket.done := by
  rcases sockets.eq_nil_or_concat' with rfl | ⟨earlier, newest, rfl⟩
  · cases h
  · rw [say_concat]
    rcases List.mem_append.mp h with hearlier | hnewest
    · exact ⟨socket, List.mem_append_left _ hearlier, rfl, rfl, rfl⟩
    · obtain rfl := List.mem_singleton.mp hnewest
      refine ⟨_, List.mem_append_right _ List.mem_cons_self, rfl, rfl, ?_⟩
      exact List.take_append_of_le_length (hhandled _ h)

theorem say_handled {messages : List (ClientMessage V)} {sockets : List (Socket Client V)}
    (hhandled : ∀ socket ∈ sockets, socket.handled ≤ socket.sent.length) :
    ∀ socket ∈ say messages sockets, socket.handled ≤ socket.sent.length := by
  rcases sockets.eq_nil_or_concat' with rfl | ⟨earlier, newest, rfl⟩
  · exact hhandled
  · rw [say_concat]
    intro socket h
    rcases List.mem_append.mp h with hearlier | hnewest
    · exact hhandled socket (List.mem_append_left _ hearlier)
    · obtain rfl := List.mem_singleton.mp hnewest
      have hle := hhandled newest (List.mem_append_right _ List.mem_cons_self)
      simp only [List.length_append]
      omega

theorem say_sent (messages : List (ClientMessage V)) (sockets : List (Socket Client V)) :
    ((say messages sockets).map Socket.sent).getLast? =
      (sockets.map Socket.sent).getLast?.map fun sent => sent ++ messages := by
  rcases sockets.eq_nil_or_concat' with rfl | ⟨earlier, newest, rfl⟩
  · rfl
  · simp

/-- A change that a function does not see. -/
theorem map_set_same {α β : Type*} (f : α → β) {items : List α} {i : Nat} {item changed : α}
    (hitem : items[i]? = some item) (hf : f changed = f item) :
    (items.set i changed).map f = items.map f := by
  rw [List.map_set, hf]
  apply List.ext_getElem?
  intro j
  by_cases hij : i = j
  · subst hij
    have hlt : i < (items.map f).length := by
      obtain ⟨hi, -⟩ := List.getElem?_eq_some_iff.mp hitem
      simpa using hi
    rw [List.getElem?_set_self hlt, List.getElem?_map, hitem]
    rfl
  · rw [List.getElem?_set_ne hij]

/-- The commands sent over the connections. -/
def commands (sockets : List (Socket Client V)) : Nat :=
  (sockets.map fun socket => socket.sent.countP ClientMessage.drives).sum

theorem say_commands {messages : List (ClientMessage V)} (h : ∀ m ∈ messages, m.drives = false)
    (sockets : List (Socket Client V)) : commands (say messages sockets) = commands sockets := by
  have hnone : messages.countP ClientMessage.drives = 0 := by
    rw [List.countP_eq_zero]
    intro m hm
    simp [h m hm]
  rcases sockets.eq_nil_or_concat' with rfl | ⟨earlier, newest, rfl⟩
  · rfl
  · simp [commands, hnone]

end Messages

namespace Console

section Page
variable {K Client V : Type} [Field K] [LinearOrder K]
variable {s s' s'' : Console K Client V} {messages more : List (ClientMessage V)}

/-- A control is held. -/
def Held (s : Console K Client V) : Prop := s.pointer ≠ none ∨ s.keys ≠ []

/-- A function of the page sends `messages` over its open connection, commands only while a
control is held and may be used, and `sending` tells whether they leave a stream open. -/
structure Says (messages : List (ClientMessage V)) (s s' : Console K Client V) : Prop where
  server : s'.server = s.server
  ws : s'.page.ws = s.page.ws
  sockets : s'.sockets = say messages s.sockets
  closed : s.page.ws ≠ some .OPEN → messages = [] ∧ (s.sending = false → s'.sending = false)
  sending : s.page.ws = some .OPEN → s'.sending = streaming s.sending messages
  commands : ∀ m ∈ messages, m.drives = true → s.Held ∧ s.can_control = true

omit [Field K] [LinearOrder K] in
/-- A function that sends nothing. -/
theorem Says.silent (hserver : s'.server = s.server) (hws : s'.page.ws = s.page.ws)
    (hsockets : s'.sockets = s.sockets) (hsending : s'.sending = s.sending) : Says [] s s' := by
  refine ⟨hserver, hws, ?_, ?_, ?_, ?_⟩
  · rw [hsockets, say_nil]
  · exact fun _ => ⟨rfl, fun h => hsending.trans h⟩
  · exact fun _ => hsending
  · simp

omit [Field K] [LinearOrder K] in
theorem Says.trans (h : Says messages s s') (h' : Says more s' s'')
    (hquiet : ∀ m ∈ more, m.drives = false) : Says (messages ++ more) s s'' := by
  refine ⟨h'.server.trans h.server, h'.ws.trans h.ws, ?_, ?_, ?_, ?_⟩
  · rw [h'.sockets, h.sockets, say_append]
  · intro hws
    obtain ⟨rfl, hfirst⟩ := h.closed hws
    obtain ⟨rfl, hlast⟩ := h'.closed (by rw [h.ws]; exact hws)
    exact ⟨rfl, fun hs => hlast (hfirst hs)⟩
  · intro hws
    rw [h'.sending (by rw [h.ws]; exact hws), h.sending hws, streaming_append]
  · intro m hm hdrives
    rcases List.mem_append.mp hm with hm | hm
    · exact h.commands m hm hdrives
    · simp [hquiet m hm] at hdrives

omit [Field K] [LinearOrder K] in
@[simp] theorem send_pointer (message : ClientMessage V) (s : Console K Client V) :
    (s.send message).2.pointer = s.pointer := by
  unfold send
  split <;> rfl

omit [Field K] [LinearOrder K] in
@[simp] theorem send_keys (message : ClientMessage V) (s : Console K Client V) :
    (s.send message).2.keys = s.keys := by
  unfold send
  split <;> rfl

/-- The function ends a stream: it sends no commands. -/
def Ends (s s' : Console K Client V) : Prop :=
  ∃ messages, Says messages s s' ∧ ∀ m ∈ messages, m.drives = false

omit [Field K] [LinearOrder K] in
theorem Says.ends (h : Says [] s s') : Ends s s' := ⟨[], h, by simp⟩

omit [Field K] [LinearOrder K] in
theorem Ends.trans (h : Ends s s') (h' : Ends s' s'') : Ends s s'' := by
  obtain ⟨messages, htalk, hquiet⟩ := h
  obtain ⟨more, htalk', hquiet'⟩ := h'
  refine ⟨messages ++ more, htalk.trans htalk' hquiet', fun m hm => ?_⟩
  rcases List.mem_append.mp hm with hm | hm
  · exact hquiet m hm
  · exact hquiet' m hm

omit [Field K] [LinearOrder K] in
/-- A message that is no command and no release. -/
theorem send_ends {message : ClientMessage V} (s : Console K Client V)
    (hdrives : message.drives = false) (hkeeps : ∀ held, streaming held [message] = held) : Ends s (s.send message).2 := by
  by_cases hws : s.page.ws = some .OPEN
  · refine ⟨[message], ⟨?_, ?_, ?_, fun h => absurd hws h, fun _ => ?_, ?_⟩, ?_⟩
    all_goals simp [send, hws, say, hkeeps, hdrives]
  · have hlost : (s.send message).2 = s := by simp [send, hws]
    rw [hlost]
    exact (Says.silent rfl rfl rfl rfl).ends

omit [Field K] [LinearOrder K] in
/-- What `stopDriving` and the interval do once nothing is held. -/
theorem release_ends (s : Console K Client V) :
    Ends s (if s.sending then { (s.send .release).2 with sending := false } else s) := by
  split
  · by_cases hws : s.page.ws = some .OPEN
    · refine ⟨[.release], ⟨?_, ?_, ?_, fun h => absurd hws h, fun _ => rfl, ?_⟩, ?_⟩
      all_goals simp [send, hws, say, ClientMessage.drives]
    · refine ⟨[], ⟨?_, ?_, ?_, fun _ => ⟨rfl, fun _ => rfl⟩, fun h => absurd h hws, ?_⟩, ?_⟩
      all_goals simp [send, hws]
  · exact (Says.silent rfl rfl rfl rfl).ends

omit [Field K] [LinearOrder K] in
theorem release_sending (s : Console K Client V) :
    (if s.sending then { (s.send .release).2 with sending := false } else s).sending = false := by
  split
  · rfl
  · rename_i hsending
    simpa using hsending

omit [LinearOrder K] in
theorem stop_driving_eq (s : Console K Client V) : ∃ t, Says [] s t ∧ t.pointer = none ∧ t.keys = [] ∧
    s.stop_driving = if t.sending then { (t.send .release).2 with sending := false } else t := by
  refine ⟨if s.pointer ≠ none then { s with keys := [] }.end_joystick else { s with keys := [] },
    ?_, ?_, ?_, rfl⟩
  · split
    · exact .silent rfl rfl rfl rfl
    · exact .silent rfl rfl rfl rfl
  · split
    · rfl
    · rename_i hpointer
      simpa using hpointer
  · split <;> rfl

omit [LinearOrder K] in
theorem stop_driving_ends (s : Console K Client V) : Ends s s.stop_driving := by
  obtain ⟨t, hsilent, -, -, heq⟩ := s.stop_driving_eq
  rw [heq]
  exact hsilent.ends.trans (release_ends t)

omit [LinearOrder K] in
/-- After `stopDriving` nothing is held and no stream is open. -/
theorem stop_driving_idle (s : Console K Client V) :
    s.stop_driving.sending = false ∧ ¬ s.stop_driving.Held := by
  obtain ⟨t, -, hpointer, hkeys, heq⟩ := s.stop_driving_eq
  rw [heq]
  refine ⟨release_sending t, ?_⟩
  unfold Held
  split
  · simp [hpointer, hkeys]
  · simp [hpointer, hkeys]

omit [Field K] [LinearOrder K] in
/-- The interval takes note of whether its command went out. -/
theorem command_talk (s : Console K Client V) (linear angular speed : V) (hheld : s.Held)
    (hcontrol : s.can_control = true) : ∃ messages, Says messages s
      { (s.send (.drive linear angular speed)).2 with
        sending := (s.send (.drive linear angular speed)).1 } := by
  by_cases hws : s.page.ws = some .OPEN
  · refine ⟨[.drive linear angular speed],
      ⟨?_, ?_, ?_, fun h => absurd hws h, fun _ => ?_, fun _ _ _ => ⟨hheld, hcontrol⟩⟩⟩
    all_goals simp [send, hws, say, streaming]
  · refine ⟨[], ⟨?_, ?_, ?_, fun _ => ⟨rfl, fun _ => ?_⟩, fun h => absurd h hws, ?_⟩⟩
    all_goals simp [send, hws]

/-- The interval sends a command while a control is held and may be used, and else ends the
stream. -/
theorem interval_talk (browser : Browser K V) (s : Console K Client V) :
    (∃ messages, Says messages s (s.interval browser)) ∧
      (¬ s.Held → Ends s (s.interval browser) ∧ (s.interval browser).sending = false) := by
  have hend : s.interval browser =
      (if s.sending then { (s.send .release).2 with sending := false } else s) →
      (∃ messages, Says messages s (s.interval browser)) ∧
        (¬ s.Held → Ends s (s.interval browser) ∧ (s.interval browser).sending = false) := by
    intro heq
    rw [heq]
    obtain ⟨messages, htalk, hquiet⟩ := release_ends s
    exact ⟨⟨messages, htalk⟩, fun _ => ⟨⟨messages, htalk, hquiet⟩, release_sending s⟩⟩
  cases haxes : s.held_axes browser with
  | none => exact hend (by simp [interval, haxes])
  | some axes =>
    cases hcontrol : s.can_control with
    | false => exact hend (by simp [interval, haxes, hcontrol])
    | true =>
      have hheld : s.Held := by
        by_contra hnone
        simp only [Held, not_or, not_not] at hnone
        simp [held_axes, hnone] at haxes
      refine ⟨?_, fun hnone => absurd hheld hnone⟩
      simp only [interval, haxes, hcontrol]
      exact command_talk s _ _ _ hheld hcontrol

/-- A function of the E-stop part keeps the WebSocket, and talks over an open one only. -/
structure Speaks (link link' : Link K Client) : Prop where
  ws : link'.page.ws = link.page.ws
  up : link.page.ws ≠ some .OPEN → link'.up = link.up

variable {link link' link'' : Link K Client} (now : K)

omit [Field K] [LinearOrder K] in
theorem Speaks.trans (h : Speaks link link') (h' : Speaks link' link'') : Speaks link link'' :=
  ⟨h'.ws.trans h.ws, fun hws => (h'.up (by rw [h.ws]; exact hws)).trans (h.up hws)⟩

omit [Field K] [LinearOrder K] in
theorem Speaks.same (hws : link'.page.ws = link.page.ws) (hup : link'.up = link.up) :
    Speaks link link' :=
  ⟨hws, fun _ => hup⟩

omit [Field K] [LinearOrder K] in
theorem send_speaks (engaged : Bool) (link : Link K Client) : Speaks link (link.send engaged).2 := by
  unfold Link.send
  split
  · rename_i hopen
    exact ⟨rfl, fun hws => absurd hopen hws⟩
  · exact .same rfl rfl

omit [LinearOrder K] in
theorem engage_speaks (link : Link K Client) : Speaks link (link.engage now) := by
  have hpending : Speaks link { link with page := { link.page with
    estop_pending := some ⟨true, now + Link.ESTOP_CONFIRM_MS⟩ } } := .same rfl rfl
  have hsent := hpending.trans (send_speaks true _)
  unfold Link.engage
  dsimp only
  split
  · exact hsent.trans (.same rfl rfl)
  · exact hsent.trans (.same rfl rfl)

omit [LinearOrder K] in
theorem release_speaks (link : Link K Client) : Speaks link (link.release now) := by
  have hsent := send_speaks false link
  unfold Link.release
  dsimp only
  split
  · exact hsent.trans (.same rfl rfl)
  · exact hsent.trans (.same rfl rfl)

omit [LinearOrder K] in
theorem keydown_speaks (key : Key) (modified : Bool) (link : Link K Client) :
    Speaks link (link.keydown now key modified) := by
  unfold Link.keydown
  split
  · exact .same rfl rfl
  · split
    · split
      · exact engage_speaks now link
      · exact .same rfl rfl
    · exact .same rfl rfl

omit [LinearOrder K] in
theorem button_down_speaks (link : Link K Client) : Speaks link (link.button_down now) := by
  unfold Link.button_down
  split
  · exact engage_speaks now link
  · split
    · exact .same rfl rfl
    · exact .same rfl rfl

theorem hold_tick_speaks (link : Link K Client) : Speaks link (link.hold_tick now) := by
  have hcancelled : Speaks link link.cancel_hold := .same rfl rfl
  unfold Link.hold_tick
  split
  · exact .same rfl rfl
  · split
    · exact hcancelled.trans (release_speaks now _)
    · exact .same rfl rfl

omit [Field K] in
theorem on_state_speaks (estop : Bool) (taken : Nat) (link : Link K Client) :
    Speaks link (link.on_state now estop taken) := by
  unfold Link.on_state
  dsimp only
  split
  · split
    · exact .same rfl rfl
    · split
      · exact .same rfl rfl
      · exact .same rfl rfl
  · split
    · exact .same rfl rfl
    · exact .same rfl rfl

omit [LinearOrder K] in
/-- `onHello` of a page that need not be loaded anew. -/
theorem on_hello_speaks {ui_version : String} {link : Link K Client}
    (h : ¬ (link.page.ui_version ≠ none ∧ link.page.ui_version ≠ some ui_version)) :
    Speaks link (link.on_hello now ui_version) := by
  obtain ⟨t, ht, hversion, heq⟩ : ∃ t, Speaks link t ∧ t.page.ui_version = link.page.ui_version ∧
      link.on_hello now ui_version =
        if t.page.ui_version ≠ none ∧ t.page.ui_version ≠ some ui_version then
          { t with page := {}, down := [] }
        else { t with page := { t.page with ui_version := some ui_version, connected := true } } := by
    have hsent := send_speaks true link
    have hversion : (link.send true).2.page.ui_version = link.page.ui_version := by
      unfold Link.send
      split <;> rfl
    cases hpending : link.page.estop_pending with
    | none => exact ⟨link, .same rfl rfl, rfl, by simp only [Link.on_hello, hpending]⟩
    | some pending =>
      cases hvalue : pending.value with
      | false => exact ⟨link, .same rfl rfl, rfl, by simp [Link.on_hello, hpending, hvalue]⟩
      | true =>
        cases hout : (link.send true).1 with
        | false => exact ⟨_, hsent, hversion, by simp [Link.on_hello, hpending, hvalue, hout]⟩
        | true =>
          exact ⟨{ (link.send true).2 with page := { (link.send true).2.page with
              estop_pending := some ⟨true, now + Link.ESTOP_CONFIRM_MS⟩ } },
            hsent.trans (.same rfl rfl), hversion, by simp [Link.on_hello, hpending, hvalue, hout]⟩
  rw [heq, hversion, if_neg h]
  exact ht.trans (.same rfl rfl)

/-- The page gives up its connection, or is loaded anew. -/
structure Leaves (s s' : Console K Client V) : Prop where
  server : s'.server = s.server
  ws : s'.page.ws = none
  sockets : ∃ messages, s'.sockets = say messages s.sockets ∧ ∀ m ∈ messages, m.drives = false
  sending : s'.sending = false

omit [LinearOrder K] in
/-- A function of the E-stop part talks and then may stop the driving. -/
theorem estop_part_eq (f : Link K Client → Link K Client) (s : Console K Client V) :
    ∃ t, t.page = (f { page := s.page, server := ⟨s.server.clock, s.server.bridge⟩ }).page ∧
      t.sockets = say
        ((f { page := s.page, server := ⟨s.server.clock, s.server.bridge⟩ }).up.map .estop) s.sockets ∧
      t.server = s.server ∧ t.sending = s.sending ∧ t.pointer = s.pointer ∧ t.keys = s.keys ∧
      (s.estop_part f = t ∨ s.estop_part f = t.stop_driving) := by
  refine ⟨{ s with
    page := (f { page := s.page, server := ⟨s.server.clock, s.server.bridge⟩ }).page
    sockets := say
      ((f { page := s.page, server := ⟨s.server.clock, s.server.bridge⟩ }).up.map .estop) s.sockets },
    rfl, rfl, rfl, rfl, rfl, rfl, ?_⟩
  unfold estop_part
  dsimp only
  split
  · exact .inr rfl
  · exact .inl rfl

omit [LinearOrder K] in
theorem estop_part_ends {f : Link K Client → Link K Client} (s : Console K Client V)
    (h : ∀ server,
      Speaks { page := s.page, server := server } (f { page := s.page, server := server })) :
    Ends s (s.estop_part f) := by
  obtain ⟨t, hpage, hsockets, hserver, hsending, -, -, heq⟩ := s.estop_part_eq f
  have hspeaks := h ⟨s.server.clock, s.server.bridge⟩
  have ht : Ends s t := by
    refine ⟨_, ⟨hserver, by rw [hpage, hspeaks.ws], hsockets,
      fun hws => ⟨?_, fun hs => hsending.trans hs⟩, fun hws => ?_, ?_⟩, ?_⟩
    · simp [hspeaks.up hws]
    · rw [hsending, streaming_estops]
    · intro m hm hdrives
      simp [estops_quiet _ m hm] at hdrives
    · exact estops_quiet _
  rcases heq with heq | heq
  · rw [heq]
    exact ht
  · rw [heq]
    exact ht.trans (stop_driving_ends t)

omit [LinearOrder K] in
theorem estop_part_free (f : Link K Client → Link K Client) (s : Console K Client V) (h : ¬ s.Held) :
    ¬ (s.estop_part f).Held := by
  obtain ⟨t, -, -, -, -, hpointer, hkeys, heq⟩ := s.estop_part_eq f
  rcases heq with heq | heq
  · rw [heq, Held, hpointer, hkeys]
    exact h
  · rw [heq]
    exact (stop_driving_idle t).2

omit [LinearOrder K] in
theorem reload_leaves {t : Console K Client V} {messages : List (ClientMessage V)}
    (hserver : t.server = s.server) (hsockets : t.sockets = say messages s.sockets)
    (hquiet : ∀ m ∈ messages, m.drives = false) : Leaves s t.reload := ⟨hserver, rfl, ⟨messages, hsockets, hquiet⟩, rfl⟩

omit [LinearOrder K] in
theorem on_hello_effect (ui_version : String) (s : Console K Client V) :
    Leaves s (s.on_hello now ui_version) ∨ Ends s (s.on_hello now ui_version) := by
  unfold on_hello
  dsimp only
  split
  · obtain ⟨t, -, hsockets, hserver, -, -, -, heq⟩ := s.estop_part_eq (Link.on_hello now ui_version)
    left
    rcases heq with heq | heq
    · rw [heq]
      exact reload_leaves hserver hsockets (estops_quiet _)
    · rw [heq]
      obtain ⟨more, htalk, hmore⟩ := stop_driving_ends t
      refine reload_leaves (htalk.server.trans hserver)
        (by rw [htalk.sockets, hsockets, say_append]) fun m hm => ?_
      · rcases List.mem_append.mp hm with hm | hm
        · exact estops_quiet _ m hm
        · exact hmore m hm
  · rename_i hversion
    exact .inr (estop_part_ends s fun server => on_hello_speaks now hversion)

/-- The operator takes a control. -/
def Grabs : ConsoleStep K Client V → Prop
  | .press_pointer _ _ _ _ | .drive_key _ _ _ _ => True
  | _ => False

/-- A step of the page alone that keeps its connection or leaves it. -/
structure PageStep (step : ConsoleStep K Client V) (s s' : Console K Client V) : Prop where
  effect : Leaves s s' ∨ ∃ messages, Says messages s s'
  free : ¬ s.Held → ¬ Grabs step → ¬ s'.Held ∧ (Leaves s s' ∨ Ends s s')

omit [Field K] [LinearOrder K] in
/-- A function that sends no command. -/
theorem PageStep.quiet {step : ConsoleStep K Client V} (h : Leaves s s' ∨ Ends s s')
    (hfree : ¬ s.Held → ¬ Grabs step → ¬ s'.Held) : PageStep step s s' := by
  refine ⟨?_, fun hheld hgrabs => ⟨hfree hheld hgrabs, h⟩⟩
  rcases h with hleaves | ⟨messages, htalk, -⟩
  · exact .inl hleaves
  · exact .inr ⟨messages, htalk⟩

omit [Field K] [LinearOrder K] in
theorem PageStep.silent {step : ConsoleStep K Client V} (hserver : s'.server = s.server)
    (hws : s'.page.ws = s.page.ws) (hsockets : s'.sockets = s.sockets)
    (hsending : s'.sending = s.sending) (hfree : ¬ s.Held → ¬ Grabs step → ¬ s'.Held) :
    PageStep step s s' :=
  .quiet (.inr (Says.silent hserver hws hsockets hsending).ends) hfree

omit [LinearOrder K] in
theorem PageStep.estop_part {step : ConsoleStep K Client V} {f : Link K Client → Link K Client}
    (s : Console K Client V) (h : ∀ server,
      Speaks { page := s.page, server := server } (f { page := s.page, server := server })) :
    PageStep step s (s.estop_part f) :=
  .quiet (.inr (estop_part_ends s h)) fun hheld _ => estop_part_free f s hheld

end Page

section Steps
variable {K Client V : Type} [Field K] [LinearOrder K] [FloorRing K] [DecidableEq Client]
variable (c : Parameters K) (l : LaunchParameters) (float : V → FloatResult K)
variable (browser : Browser K V) (mine : Client → Bool)
variable {s s' : Console K Client V}

/-- What a step does to the page, to its connections and to the server. -/
inductive Effect (step : ConsoleStep K Client V) (s s' : Console K Client V) : Prop
  | page (h : PageStep step s s')
  | connect (client : Client) (hws : s.page.ws = none) (hmine : mine client = true)
      (hnew : client ∉ s.sockets.map Socket.client)
      (hs' : s' = { s with
        page := { s.page with ws := some .CONNECTING }
        sockets := s.sockets ++ [{ client := client }] })
  | opened (hws : s.page.ws = some .CONNECTING)
      (hs' : s' = { s with page := { s.page with ws := some .OPEN } })
  | closing (hs' : s' = { s with page := { s.page with ws := some .CLOSING } })
  | deliver (i : Nat) (now : K) (socket : Socket Client V) (message : ClientMessage V)
      (hsocket : s.sockets[i]? = some socket) (hserved : socket.served = true)
      (hmessage : socket.sent[socket.handled]? = some message) (hclock : s.server.clock ≤ now)
      (hs' : s' = { s with
        sockets := s.sockets.set i { socket with handled := socket.handled + 1 }
        server := { s.server with clock := now }.handle c float now socket.client message })
  | lost (i : Nat) (now : K) (socket : Socket Client V) (hsocket : s.sockets[i]? = some socket)
      (hclock : s.server.clock ≤ now)
      (hs' : s' = { s with
        sockets := s.sockets.set i { socket with served := false }
        server := { s.server with clock := now }.call c float now (.release socket.client true) })
  | server (e : ServerEvent K Client V) (server : WebServer K Client)
      (hothers : (driver_of e.step).any mine = false)
      (hnext : WebServer.next c l float s.server e server)
      (hs' : s' = { s with server := server })

variable {c l float browser mine}

theorem serve_eq {e : ServerEvent K Client V} (h : s.serve c l float e = some s') :
    ∃ server, WebServer.next c l float s.server e server ∧ s' = { s with server := server } := by
  unfold serve at h
  rw [Option.ite_none_right_eq_some] at h
  obtain ⟨hclock, h⟩ := h
  obtain ⟨server, hserver, rfl⟩ := Option.map_eq_some_iff.mp h
  exact ⟨server, ⟨hclock, hserver⟩, rfl⟩

omit [LinearOrder K] [FloorRing K] [DecidableEq Client] in
theorem closed_step (s : Console K Client V) :
    PageStep (.closed : ConsoleStep K Client V) s
      { s with page := { s.page with ws := none, connected := false } }.stop_driving := by
  obtain ⟨messages, htalk, hquiet⟩ :=
    stop_driving_ends { s with page := { s.page with ws := none, connected := false } }
  obtain ⟨hsending, hfree⟩ :=
    stop_driving_idle { s with page := { s.page with ws := none, connected := false } }
  exact .quiet (.inl ⟨htalk.server, htalk.ws, ⟨messages, htalk.sockets, hquiet⟩, hsending⟩)
    fun _ _ => hfree

theorem next_effect {step : ConsoleStep K Client V} (h : next c l float browser mine s step s') :
    Effect c l float mine step s s' := by
  unfold next taken at h
  cases step with
  | connect client =>
    rw [Option.ite_none_right_eq_some] at h
    obtain ⟨⟨hws, hmine, hnew⟩, h⟩ := h
    cases h
    exact .connect client hws hmine hnew rfl
  | opened =>
    rw [Option.ite_none_right_eq_some] at h
    obtain ⟨hws, h⟩ := h
    cases h
    exact .opened hws rfl
  | closing =>
    rw [Option.ite_none_left_eq_some] at h
    obtain ⟨-, h⟩ := h
    cases h
    exact .closing rfl
  | closed =>
    rw [Option.ite_none_left_eq_some] at h
    obtain ⟨-, h⟩ := h
    cases h
    exact .page (closed_step s)
  | reload =>
    cases h
    have hleaves : Leaves s s.reload := reload_leaves rfl (say_nil _).symm (by simp)
    exact .page (.quiet (.inl hleaves) fun _ _ => by simp [Held, reload])
  | hello ui_version now =>
    rw [Option.ite_none_right_eq_some] at h
    obtain ⟨-, h⟩ := h
    cases h
    have hfree : ¬ s.Held → ¬ (s.on_hello now ui_version).Held := by
      intro hfree
      unfold on_hello
      dsimp only
      split
      · simp [Held, reload]
      · exact estop_part_free _ s hfree
    exact .page (.quiet (on_hello_effect now ui_version s) fun hheld _ => hfree hheld)
  | telemetry estop driver now =>
    rw [Option.ite_none_right_eq_some] at h
    obtain ⟨-, h⟩ := h
    cases h
    have hdriver : Says [] (s.estop_part (Link.on_state now estop 0)) (s.on_state now estop driver) :=
      .silent rfl rfl rfl rfl
    have hends := (estop_part_ends s fun _ => on_state_speaks now estop 0 _).trans hdriver.ends
    exact .page (.quiet (.inr hends) fun hfree _ => estop_part_free (Link.on_state now estop 0) s hfree)
  | press_pointer pointer dx dy travel =>
    cases h
    refine .page (.silent ?_ ?_ ?_ ?_ fun _ hgrabs => absurd trivial hgrabs)
    all_goals
      unfold press_pointer toast move_joystick
      dsimp only
      repeat' split
      all_goals rfl
  | move_pointer pointer dx dy travel =>
    cases h
    split
    · exact .page (.silent rfl rfl rfl rfl fun hfree _ => hfree)
    · exact .page (.silent rfl rfl rfl rfl fun hfree _ => hfree)
  | release_pointer pointer =>
    cases h
    split
    · refine .page (.silent rfl rfl rfl rfl fun hfree _ => ?_)
      simp only [Held, not_or, not_not] at hfree ⊢
      exact ⟨rfl, hfree.2⟩
    · exact .page (.silent rfl rfl rfl rfl fun hfree _ => hfree)
  | drive_key key modified held on_slider =>
    cases h
    refine .page (.silent ?_ ?_ ?_ ?_ fun _ hgrabs => absurd trivial hgrabs)
    all_goals
      unfold drive_key toast
      dsimp only
      repeat' split
      all_goals rfl
  | drive_key_up key =>
    cases h
    refine .page (.silent rfl rfl rfl rfl fun hfree _ => ?_)
    simp only [Held, not_or, not_not] at hfree ⊢
    exact ⟨hfree.1, by simp [hfree.2]⟩
  | keydown key modified now =>
    cases h
    exact .page (.estop_part s fun _ => keydown_speaks now key modified _)
  | button_down now =>
    cases h
    exact .page (.estop_part s fun _ => button_down_speaks now _)
  | button_up =>
    cases h
    exact .page (.estop_part s fun _ => .same rfl rfl)
  | frame now =>
    cases h
    exact .page (.estop_part s fun _ => hold_tick_speaks now _)
  | leave =>
    cases h
    exact .page (.quiet (.inr (stop_driving_ends s)) fun _ _ => (stop_driving_idle s).2)
  | interval =>
    cases h
    obtain ⟨htalk, hidle⟩ := interval_talk browser s
    refine .page ⟨.inr htalk, fun hfree _ => ⟨?_, .inr (hidle hfree).1⟩⟩
    have hnone := hfree
    simp only [Held, not_or, not_not] at hnone
    have haxes : s.held_axes browser = none := by simp [held_axes, hnone]
    simp only [interval, haxes]
    split
    · simpa [Held] using hnone
    · exact hfree
  | set_speed speed =>
    cases h
    exact .page (.silent rfl rfl rfl rfl fun hfree _ => hfree)
  | aim yaw pitch =>
    cases h
    refine .page (.quiet (.inr (send_ends s rfl fun _ => rfl)) fun hfree _ => ?_)
    simpa [Held] using hfree
  | choose_mode mode =>
    cases h
    split
    · refine .page (.quiet (.inr (send_ends s rfl fun _ => rfl)) fun hfree _ => ?_)
      simpa [Held] using hfree
    · exact .page (.silent rfl rfl rfl rfl fun hfree _ => hfree)
  | deliver i now =>
    obtain ⟨socket, hsocket, h⟩ := Option.bind_eq_some_iff.mp h
    rw [Option.ite_none_right_eq_some] at h
    obtain ⟨hserved, h⟩ := h
    obtain ⟨message, hmessage, h⟩ := Option.bind_eq_some_iff.mp h
    obtain ⟨server, ⟨hclock, hserver⟩, rfl⟩ := serve_eq h
    cases hserver
    exact .deliver i now socket message hsocket hserved hmessage hclock rfl
  | lost i now =>
    obtain ⟨socket, hsocket, h⟩ := Option.bind_eq_some_iff.mp h
    rw [Option.ite_none_right_eq_some] at h
    obtain ⟨-, h⟩ := h
    obtain ⟨server, ⟨hclock, hserver⟩, rfl⟩ := serve_eq h
    cases hserver
    exact .lost i now socket hsocket hclock rfl
  | server e =>
    rw [Option.ite_none_left_eq_some] at h
    obtain ⟨hothers, h⟩ := h
    obtain ⟨server, hnext, rfl⟩ := serve_eq h
    exact .server e server (by simpa using hothers) hnext rfl

end Steps

section Invariant
variable {K Client V : Type} [Field K] [LinearOrder K]
variable (c : Parameters K) (mine : Client → Bool)

/-- The server serves a connection of this client, and the last command or release that it has
handled of it is a command. -/
def Streams (sockets : List (Socket Client V)) (client : Client) : Prop :=
  ∃ socket ∈ sockets, socket.client = client ∧ socket.served = true ∧
    streaming false socket.done = true

/-- The page's part of a live command is a stream that the server still hears, and the page's
own WebSocket carries a stream exactly while the page is `sending`. -/
structure Linked (s : Console K Client V) : Prop where
  owned : Owned c (fun client => mine client = true → Streams s.sockets client)
    ⟨s.server.clock, s.server.bridge⟩
  clients : (s.sockets.map Socket.client).Nodup
  handled : ∀ socket ∈ s.sockets, socket.handled ≤ socket.sent.length
  newest : s.page.ws = some .OPEN →
    (s.sockets.map Socket.sent).getLast?.map (streaming false) = some s.sending
  connecting : s.page.ws = some .CONNECTING → (s.sockets.map Socket.sent).getLast? = some []
  idle : s.page.ws = none ∨ s.page.ws = some .CONNECTING → s.sending = false

variable {c mine} {s s' : Console K Client V} {messages : List (ClientMessage V)}

theorem Streams.said {sockets : List (Socket Client V)} {client : Client} (h : Streams sockets client)
    (hhandled : ∀ socket ∈ sockets, socket.handled ≤ socket.sent.length) :
    Streams (say messages sockets) client := by
  obtain ⟨socket, hmem, hclient, hserved, hdone⟩ := h
  obtain ⟨socket', hmem', hclient', hserved', hdone'⟩ := mem_say hhandled hmem
  refine ⟨socket', hmem', hclient'.trans hclient, hserved'.trans hserved, ?_⟩
  rw [hdone']
  exact hdone

/-- What the page says leaves the server's part alone. -/
theorem Linked.owned_say (h : Linked c mine s) (hserver : s'.server = s.server)
    (hsockets : s'.sockets = say messages s.sockets) :
    Owned c (fun client => mine client = true → Streams s'.sockets client)
      ⟨s'.server.clock, s'.server.bridge⟩ := by
  rw [hserver, hsockets]
  exact h.owned.imp fun client hstreams hmine => (hstreams hmine).said h.handled

theorem Linked.leaves (h : Linked c mine s) (hleaves : Leaves s s') : Linked c mine s' := by
  obtain ⟨messages, hsockets, -⟩ := hleaves.sockets
  have hws := hleaves.ws
  refine ⟨h.owned_say hleaves.server hsockets, ?_, ?_, fun hopen => ?_, fun hconnecting => ?_,
    fun _ => hleaves.sending⟩
  · rw [hsockets, say_clients]
    exact h.clients
  · rw [hsockets]
    exact say_handled h.handled
  · simp [hws] at hopen
  · simp [hws] at hconnecting

theorem Linked.talk (h : Linked c mine s) (htalk : Says messages s s') : Linked c mine s' := by
  refine ⟨h.owned_say htalk.server htalk.sockets, ?_, ?_, fun hopen => ?_, fun hconnecting => ?_,
    fun hidle => ?_⟩
  · rw [htalk.sockets, say_clients]
    exact h.clients
  · rw [htalk.sockets]
    exact say_handled h.handled
  · rw [htalk.ws] at hopen
    have hnewest := h.newest hopen
    rw [htalk.sockets, say_sent, htalk.sending hopen]
    obtain ⟨sent, hsent, hstreaming⟩ := Option.map_eq_some_iff.mp hnewest
    rw [hsent, Option.map_some, Option.map_some, streaming_append, hstreaming]
  · rw [htalk.ws] at hconnecting
    obtain ⟨rfl, -⟩ := htalk.closed (by simp [hconnecting])
    rw [htalk.sockets, say_nil]
    exact h.connecting hconnecting
  · rw [htalk.ws] at hidle
    refine (htalk.closed ?_).2 (h.idle hidle)
    rcases hidle with hws | hws
    · simp [hws]
    · simp [hws]

omit [Field K] [LinearOrder K] in
/-- A command is stored for the client of its message. -/
theorem makes_drive {step : Step K Client V} {client : Client} {linear angular speed : V}
    (h : step.makes (.drive client linear angular speed)) : driver_of step = some client := by
  cases step with
  | message sender message =>
    cases message with
    | drive _ _ _ =>
      simp only [Step.makes, ClientMessage.op, Option.some.injEq, Op.drive.injEq] at h
      simp [driver_of, h.1]
    | release | estop | gizmo | mode => cases h
  | disconnect sender => cases h
  | call made =>
    obtain rfl := h
    rfl
  | telemetry | begin_task | acquire | resume | process | line => exact h.elim

/-- A connection with another client is not the one at `i`. -/
theorem Streams.elsewhere {sockets : List (Socket Client V)} {i : Nat}
    {socket changed : Socket Client V} {client : Client} (h : Streams sockets client) (hsocket : sockets[i]? = some socket)
    (hne : client ≠ socket.client) : Streams (sockets.set i changed) client := by
  obtain ⟨other, hmem, rfl, hserved, hdone⟩ := h
  refine ⟨other, ?_, rfl, hserved, hdone⟩
  obtain ⟨j, hj⟩ := List.mem_iff_getElem?.mp hmem
  refine List.mem_iff_getElem?.mpr ⟨j, ?_⟩
  have hij : i ≠ j := by
    rintro rfl
    rw [hsocket] at hj
    obtain rfl := Option.some.inj hj
    exact hne rfl
  rw [List.getElem?_set_ne hij]
  exact hj

/-- The stream of a connection's own client is the connection's. -/
theorem Streams.here {sockets : List (Socket Client V)}
    (hclients : (sockets.map Socket.client).Nodup) {i : Nat} {socket : Socket Client V}
    (hsocket : sockets[i]? = some socket) (h : Streams sockets socket.client) :
    streaming false socket.done = true := by
  obtain ⟨other, hmem, hclient, -, hdone⟩ := h
  have hsame : other = socket :=
    List.inj_on_of_nodup_map hclients hmem (List.mem_of_getElem? hsocket) hclient
  rw [← hsame]
  exact hdone

/-- A connection of which the server takes note keeps its place and what was sent over it. -/
theorem Linked.noted (h : Linked c mine s) {i : Nat} {socket changed : Socket Client V}
    {server : WebServer K Client} (hsocket : s.sockets[i]? = some socket) (hclient : changed.client = socket.client)
    (hsent : changed.sent = socket.sent) (hhandled : changed.handled ≤ changed.sent.length)
    (howned : Owned c (fun client => mine client = true → Streams (s.sockets.set i changed) client)
      ⟨server.clock, server.bridge⟩) :
    Linked c mine { s with sockets := s.sockets.set i changed, server := server } := by
  have hclients : (s.sockets.set i changed).map Socket.client = s.sockets.map Socket.client :=
    map_set_same Socket.client hsocket hclient
  have hall : (s.sockets.set i changed).map Socket.sent = s.sockets.map Socket.sent :=
    map_set_same Socket.sent hsocket hsent
  refine ⟨howned, ?_, fun socket hmem => ?_, fun hopen => ?_, fun hconnecting => ?_, h.idle⟩
  · rw [hclients]
    exact h.clients
  · rcases List.mem_or_eq_of_mem_set hmem with hmem | rfl
    · exact h.handled socket hmem
    · exact hhandled
  · rw [hall]
    exact h.newest hopen
  · rw [hall]
    exact h.connecting hconnecting

end Invariant

section Server
variable {K Client V : Type} [Field K] [LinearOrder K] [IsStrictOrderedRing K] [FloorRing K]
  [DecidableEq Client]
variable {c : Parameters K} {l : LaunchParameters} {float : V → FloatResult K} {mine : Client → Bool}
variable {s s' : Console K Client V}

/-- Steps of the server that are not about this page. -/
theorem Linked.others (hle : c.command_timeout ≤ c.driver_timeout) (h : Linked c mine s)
    {e : ServerEvent K Client V} {server : WebServer K Client}
    (hothers : (driver_of e.step).any mine = false)
    (hnext : WebServer.next c l float s.server e server) :
    Linked c mine { s with server := server } := by
  obtain ⟨⟨ops, hrun⟩, hclock⟩ := WebServer.taken_calls c l float hnext.2
  change server.clock = e.now at hclock
  refine ⟨?_, h.clients, h.handled, h.newest, h.connecting, h.idle⟩
  change Owned c _ ⟨server.clock, server.bridge⟩
  rw [hclock]
  refine hrun.invariant (fun bridge => Owned c _ ⟨e.now, bridge⟩) (h.owned.pass hnext.1) ?_
  intro bridge bridge' op howned hcall
  obtain ⟨hmakes, rfl⟩ := hcall
  refine howned.perform float hle ⟨e.now, op⟩ (le_refl _) (fun client hclient _ => hclient) ?_
  intro client linear angular speed hop hmine
  obtain rfl : op = .drive client linear angular speed := hop
  rw [makes_drive hmakes] at hothers
  simp [hmine] at hothers

/-- The server handles the next message of a connection. -/
theorem Linked.deliver (hle : c.command_timeout ≤ c.driver_timeout) (h : Linked c mine s) {i : Nat}
    {now : K} {socket : Socket Client V} {message : ClientMessage V}
    (hsocket : s.sockets[i]? = some socket) (hserved : socket.served = true)
    (hmessage : socket.sent[socket.handled]? = some message) (hclock : s.server.clock ≤ now) :
    Linked c mine { s with
      sockets := s.sockets.set i { socket with handled := socket.handled + 1 }
      server := { s.server with clock := now }.handle c float now socket.client message } := by
  obtain ⟨hlt, -⟩ := List.getElem?_eq_some_iff.mp hmessage
  refine h.noted hsocket rfl rfl hlt ?_
  obtain ⟨htime, hbridge⟩ := WebServer.handle_calls c float now socket.client message
    { s.server with clock := now }
  rw [htime, hbridge]
  have hdone : ({ socket with handled := socket.handled + 1 } : Socket Client V).done =
      socket.done ++ [message] := by
    simp [Socket.done, List.take_add_one, hmessage]
  have hplace : { socket with handled := socket.handled + 1 } ∈
      s.sockets.set i { socket with handled := socket.handled + 1 } := by
    obtain ⟨hi, -⟩ := List.getElem?_eq_some_iff.mp hsocket
    exact List.mem_set hi _
  -- a stream goes on unless the message is its release
  have hkeep : ∀ client, (mine client = true → Streams s.sockets client) →
      (client = socket.client → streaming true [message] = true) →
      mine client = true →
        Streams (s.sockets.set i { socket with handled := socket.handled + 1 }) client := by
    intro client hstreams hmessage hmine
    by_cases hclient : client = socket.client
    · subst hclient
      refine ⟨_, hplace, rfl, hserved, ?_⟩
      rw [hdone, streaming_append, (hstreams hmine).here h.clients hsocket]
      exact hmessage rfl
    · exact (hstreams hmine).elsewhere hsocket hclient
  cases hop : message.op (K := K) socket.client with
  | none =>
    refine (h.owned.pass hclock).imp fun client hstreams => hkeep client hstreams fun _ => ?_
    cases message with
    | mode mode => rfl
    | drive | release | estop | gizmo => cases hop
  | some op =>
    refine h.owned.perform float hle ⟨now, op⟩ hclock (fun client hstreams hundisturbed => ?_) ?_
    · refine hkeep client hstreams fun hclient => ?_
      subst hclient
      cases message with
      | release =>
        cases hop
        exact absurd rfl hundisturbed
      | drive linear angular speed => rfl
      | estop engaged => rfl
      | gizmo yaw pitch => rfl
      | mode mode => rfl
    · intro client linear angular speed hdrive hmine
      obtain rfl : op = .drive client linear angular speed := hdrive
      cases message with
      | drive _ _ _ =>
        cases hop
        refine ⟨_, hplace, rfl, hserved, ?_⟩
        rw [hdone, streaming_append]
        rfl
      | release | estop | gizmo | mode => cases hop

/-- The server's handler of a connection ends. -/
theorem Linked.lost (hle : c.command_timeout ≤ c.driver_timeout) (h : Linked c mine s) {i : Nat} {now : K}
    {socket : Socket Client V} (hsocket : s.sockets[i]? = some socket) (hclock : s.server.clock ≤ now) :
    Linked c mine { s with
      sockets := s.sockets.set i { socket with served := false }
      server := { s.server with clock := now }.call c float now (.release socket.client true) } := by
  refine h.noted hsocket rfl rfl (h.handled socket (List.mem_of_getElem? hsocket)) ?_
  refine h.owned.perform float hle ⟨now, .release socket.client true⟩ hclock
    (fun client hstreams hundisturbed hmine => ?_) ?_
  · exact (hstreams hmine).elsewhere hsocket (Ne.symm hundisturbed)
  · intro client linear angular speed hdrive
    cases hdrive

end Server

section Runs
variable {K Client V : Type} [Field K] [LinearOrder K] [IsStrictOrderedRing K] [FloorRing K]
  [DecidableEq Client]
variable (c : Parameters K) (l : LaunchParameters) (float : V → FloatResult K)
variable (browser : Browser K V) (mine : Client → Bool)
variable {s s' : Console K Client V}

theorem next_linked (hle : c.command_timeout ≤ c.driver_timeout) {step : ConsoleStep K Client V}
    (h : Linked c mine s) (hn : next c l float browser mine s step s') : Linked c mine s' := by
  cases next_effect hn with
  | page hpage =>
    rcases hpage.effect with hleaves | ⟨messages, htalk⟩
    · exact h.leaves hleaves
    · exact h.talk htalk
  | connect client hws hmine hnew hs' =>
    subst hs'
    refine ⟨?_, ?_, fun socket hmem => ?_, fun hopen => ?_, fun _ => ?_, fun _ => h.idle (.inl hws)⟩
    · refine h.owned.imp fun client hstreams hmine => ?_
      obtain ⟨socket, hmem, hrest⟩ := hstreams hmine
      exact ⟨socket, List.mem_append_left _ hmem, hrest⟩
    · simp only [List.map_append, List.map_cons, List.map_nil]
      exact List.nodup_append.mpr ⟨h.clients, List.nodup_singleton _, by simpa using hnew⟩
    · rcases List.mem_append.mp hmem with hmem | hmem
      · exact h.handled socket hmem
      · obtain rfl := List.mem_singleton.mp hmem
        exact le_refl _
    · cases hopen
    · simp
  | opened hws hs' =>
    subst hs'
    refine ⟨h.owned, h.clients, h.handled, fun _ => ?_, fun hconnecting => ?_, fun hidle => ?_⟩
    · have hnothing := h.connecting hws
      change (s.sockets.map Socket.sent).getLast?.map (streaming false) = some s.sending
      rw [hnothing, h.idle (.inr hws)]
      rfl
    · cases hconnecting
    · rcases hidle with hidle | hidle
      · cases hidle
      · cases hidle
  | closing hs' =>
    subst hs'
    refine ⟨h.owned, h.clients, h.handled, fun hopen => ?_, fun hconnecting => ?_, fun hidle => ?_⟩
    · cases hopen
    · cases hconnecting
    · rcases hidle with hidle | hidle
      · cases hidle
      · cases hidle
  | deliver i now socket message hsocket hserved hmessage hclock hs' =>
    subst hs'
    exact h.deliver hle hsocket hserved hmessage hclock
  | lost i now socket hsocket hclock hs' =>
    subst hs'
    exact h.lost hle hsocket hclock
  | server e server hothers hnext hs' =>
    subst hs'
    exact h.others hle hothers hnext

omit [IsStrictOrderedRing K] [FloorRing K] [DecidableEq Client] in
theorem start_linked (t : K) : Linked c mine (start c t : Console K Client V) := by
  have hinit : (RobotBridge.init c t : RobotBridge K Client).command = none ∧
      (RobotBridge.init c t : RobotBridge K Client).driver_lock.timeout = c.driver_timeout := by
    unfold RobotBridge.init
    dsimp only
    split
    · exact ⟨rfl, rfl⟩
    · exact ⟨rfl, rfl⟩
  refine ⟨⟨hinit.2, fun _ => hinit.1, fun command hcommand => ?_⟩, List.nodup_nil, by simp [start],
    fun hopen => ?_, fun hconnecting => ?_, fun _ => rfl⟩
  · have hnone := hinit.1.symm.trans hcommand
    cases hnone
  · cases hopen
  · cases hconnecting

/-- Nothing is held, and once `ticked` the page sends no stream. -/
structure Free (k : Nat) (ticked : Prop) (s : Console K Client V) : Prop where
  held : ¬ s.Held
  count : commands s.sockets = k
  sending : ticked → s.sending = false

variable {c l float browser mine}

omit [IsStrictOrderedRing K] in
theorem Free.step {k : Nat} {ticked : Prop} {step : ConsoleStep K Client V} (h : Free k ticked s)
    (hn : next c l float browser mine s step s') (hgrabs : ¬ Grabs step) :
    Free k (ticked ∨ step = .interval) s' := by
  have hinterval : step = .interval → s'.sending = false := by
    rintro rfl
    cases hn
    exact ((interval_talk browser s).2 h.held).2
  -- a step of the network or of the server leaves the controls alone
  have hsame : ¬ s'.Held → s'.sending = s.sending → commands s'.sockets = commands s.sockets →
      Free k (ticked ∨ step = .interval) s' := by
    intro hheld hsending hcommands
    refine ⟨hheld, hcommands.trans h.count, fun hticked => ?_⟩
    rcases hticked with hticked | hstep
    · exact hsending.trans (h.sending hticked)
    · exact hinterval hstep
  cases next_effect hn with
  | page hpage =>
    obtain ⟨hheld, heffect⟩ := hpage.free h.held hgrabs
    rcases heffect with hleaves | ⟨messages, htalk, hquiet⟩
    · obtain ⟨messages, hsockets, hquiet⟩ := hleaves.sockets
      refine ⟨hheld, ?_, fun _ => hleaves.sending⟩
      rw [hsockets, say_commands hquiet]
      exact h.count
    · refine ⟨hheld, ?_, fun hticked => ?_⟩
      · rw [htalk.sockets, say_commands hquiet]
        exact h.count
      · rcases hticked with hticked | hstep
        · by_cases hws : s.page.ws = some .OPEN
          · rw [htalk.sending hws, h.sending hticked]
            exact idle_of_quiet hquiet
          · exact (htalk.closed hws).2 (h.sending hticked)
        · exact hinterval hstep
  | connect client hws hmine hnew hs' =>
    subst hs'
    exact hsame h.held rfl (by simp [commands])
  | opened hws hs' =>
    subst hs'
    exact hsame h.held rfl rfl
  | closing hs' =>
    subst hs'
    exact hsame h.held rfl rfl
  | deliver i now socket message hsocket hserved hmessage hclock hs' =>
    subst hs'
    exact hsame h.held rfl (congrArg List.sum (map_set_same _ hsocket rfl))
  | lost i now socket hsocket hclock hs' =>
    subst hs'
    exact hsame h.held rfl (congrArg List.sum (map_set_same _ hsocket rfl))
  | server e server hothers hnext hs' =>
    subst hs'
    exact hsame h.held rfl rfl

/-- What the operator has let go of stops. Once nothing is held, and until a control is taken
again, the page sends no command; from the next interval on, a step of the server publishes a
twist other than zero for a client of this page only while the release of its connection is on
its way, or while the server has not noticed that the page lost the connection. -/
theorem let_go_stops (hle : c.command_timeout ≤ c.driver_timeout) {t : K}
    {steps more : List (ConsoleStep K Client V)}
    (hr : Run (next c l float browser mine) (start c t) steps s) (hfree : ¬ s.Held)
    (hmore : Run (fun a step b => next c l float browser mine a step b ∧ ¬ Grabs step) s more s')
    (htick : .interval ∈ more) :
    commands s'.sockets = commands s.sockets ∧ s'.sending = false ∧
      ∀ (e : ServerEvent K Client V) server v w, WebServer.next c l float s'.server e server →
        .twist v w ∈ sent_in s'.server.bridge server.bridge → (v ≠ 0 ∨ w ≠ 0) →
        ∃ client, s'.server.bridge.driver_lock.driver = some client ∧ (mine client = true →
          ∃ socket ∈ s'.sockets, socket.client = client ∧ socket.served = true ∧
            (.release ∈ socket.in_flight ∨
              ¬ (s'.page.ws = some .OPEN ∧ s'.sockets.getLast? = some socket))) := by
  have hlinked : Linked c mine s' := by
    have hstart := hr.invariant (Linked c mine) (start_linked c mine t)
      fun a b step => next_linked c l float browser mine hle
    exact hmore.invariant (Linked c mine) hstart
      fun a b step h hn => next_linked c l float browser mine hle h hn.1
  have hquiet : Free (commands s.sockets) (.interval ∈ more) s' := by
    clear htick hlinked hr
    induction hmore with
    | nil => exact ⟨hfree, rfl, by simp⟩
    | snoc _ hn ih =>
      have hstep := ih.step hn.1 hn.2
      refine ⟨hstep.held, hstep.count, fun hmem => hstep.sending ?_⟩
      rcases List.mem_append.mp hmem with hmem | hmem
      · exact .inl hmem
      · exact .inr (List.mem_singleton.mp hmem).symm
  have hsending := hquiet.sending htick
  refine ⟨hquiet.count, hsending, fun e server v w hnext hmem hne => ?_⟩
  obtain ⟨command, hlive⟩ := WebServer.next_twist c l float hnext hmem hne
  obtain ⟨client, hstreams, hdriver⟩ := (hlinked.owned.pass hnext.1).live hlive
  refine ⟨client, hdriver, fun hmine => ?_⟩
  obtain ⟨socket, hsocket, hclient, hserved, hdone⟩ := hstreams hmine
  refine ⟨socket, hsocket, hclient, hserved, ?_⟩
  by_cases hown : s'.page.ws = some .OPEN ∧ s'.sockets.getLast? = some socket
  · -- the page ended the stream of its own connection, and the server has not heard of it
    have hnewest := hlinked.newest hown.1
    rw [List.getLast?_map, hown.2, hsending] at hnewest
    have hended : streaming false socket.sent = false := Option.some.inj hnewest
    rw [← List.take_append_drop socket.handled socket.sent, streaming_append] at hended
    change streaming (streaming false socket.done) socket.in_flight = false at hended
    rw [hdone] at hended
    exact .inl (release_of_ended hended)
  · exact .inr hown

end Runs

section Concrete

abbrev PageCall := ConsoleStep Rat String (Dbl Rat)

/-- The keys do not ask for the length of a vector or for a power. -/
def keyboard_browser : Browser Rat (Dbl Rat) where
  hypot dx dy := max |dx| |dy|
  power v := v
  json := .fin

def of_page (client : String) : Bool := client == "page"

def walked (steps : List PageCall) : Option (Console Rat String (Dbl Rat)) :=
  (start web_controller_yaml 0).play web_controller_yaml WebServer.behavior_launches float_of keyboard_browser
    of_page steps

/-- Both sides are clear, the page connects, and the operator drives forward and lets go. -/
def tap_forward : List PageCall :=
  [.server ⟨1 / 10, .call (.on_range .left .pinf)⟩, .server ⟨1 / 10, .call (.on_range .right .pinf)⟩,
    .connect "page", .opened, .hello "1" 0, .drive_key .KeyW false false false, .interval,
    .deliver 0 (1 / 5), .drive_key_up .KeyW]

/-- The drive timer in the middle of the command's time. -/
def tick_at : ServerEvent Rat String (Dbl Rat) := ⟨3 / 10, .call .on_drive_timer⟩

/-- The state of `server` after the tick. -/
def ticked_server (server : WebServer Rat String) : WebServer Rat String :=
  { server with clock := 3 / 10 }.call web_controller_yaml float_of (3 / 10) .on_drive_timer

theorem tap_forward_free : (walked tap_forward).map (fun s =>
    (s.pointer, s.keys, (s.interval keyboard_browser).server.clock)) = some (none, [], 1 / 5) := by
  decide +kernel

theorem tap_forward_sends : (walked tap_forward).map (fun s =>
    ((s.interval keyboard_browser).server.bridge.driver_lock.driver,
      sent_in (s.interval keyboard_browser).server.bridge
        (ticked_server (s.interval keyboard_browser).server).bridge)) =
      some (some "page", [.twist (1 / 5) 0]) := by
  decide +kernel

/-- The robot still drives, since the release of the key is on its way. -/
theorem let_go_stops_key : ∃ s s' : Console Rat String (Dbl Rat), walked tap_forward = some s ∧
    next web_controller_yaml WebServer.behavior_launches float_of keyboard_browser of_page s .interval s' ∧
    s'.sending = false ∧ ∃ socket ∈ s'.sockets, socket.client = "page" ∧ socket.served = true ∧
      (.release ∈ socket.in_flight ∨ ¬ (s'.page.ws = some .OPEN ∧ s'.sockets.getLast? = some socket)) := by
  obtain ⟨s, hs⟩ : ∃ s, walked tap_forward = some s := Option.isSome_iff_exists.mp (by decide +kernel)
  have hcontrols := tap_forward_free
  have hsends := tap_forward_sends
  rw [hs] at hcontrols hsends
  obtain ⟨hpointer, hcontrols⟩ := Prod.mk.inj (Option.some.inj hcontrols)
  obtain ⟨hkeys, hclock⟩ := Prod.mk.inj hcontrols
  obtain ⟨hdriver, hsent⟩ := Prod.mk.inj (Option.some.inj hsends)
  have hstep : next web_controller_yaml WebServer.behavior_launches float_of keyboard_browser of_page
      s .interval (s.interval keyboard_browser) := rfl
  have hfree : ¬ s.Held := by simp [Held, hpointer, hkeys]
  obtain ⟨-, hsending, htwists⟩ := let_go_stops (c := web_controller_yaml) (by decide +kernel)
    (run_play web_controller_yaml WebServer.behavior_launches float_of keyboard_browser hs) hfree
    (Run.single ⟨hstep, fun h => h⟩) List.mem_cons_self
  obtain ⟨client, hclient, hpage⟩ := htwists tick_at
    (ticked_server (s.interval keyboard_browser).server) (1 / 5) 0
    ⟨by rw [hclock]; decide +kernel, rfl⟩ (by rw [hsent]; exact List.mem_singleton.mpr rfl)
    (.inl (by decide +kernel))
  rw [hdriver] at hclient
  obtain rfl := Option.some.inj hclient
  exact ⟨s, s.interval keyboard_browser, hs, hstep, hsending, hpage rfl⟩

end Concrete

end Console

end IotRobot.Web
