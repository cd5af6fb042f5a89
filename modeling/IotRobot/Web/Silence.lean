import IotRobot.Web.Authority

/-!
# Letting go

After the last command the drive timer stops `/cmd_vel/web` with one zero twist and is
silent then, so that `twist_mux` hands over to a follower. The zero may come from a release
as well; the flag `published` tells whether one is due.
-/

namespace IotRobot.Web

open Lib

set_option autoImplicit false

/-- A twist on `/cmd_vel/web`, and whether a tick sent it for a live command. -/
structure Twist (K : Type) where
  linear : K
  angular : K
  live : Bool
  deriving DecidableEq

/-- The twist with which the driver's last command ends. -/
def Twist.zero {K : Type} [Zero K] : Twist K := ⟨0, 0, false⟩

/-- The last twist sent was for a command. -/
def ticked {K : Type} (twists : List (Twist K)) : Bool := twists.getLast?.any Twist.live

theorem ticked_snoc {K : Type} (twists : List (Twist K)) (x : Twist K) :
    ticked (twists ++ [x]) = x.live := by
  unfold ticked
  rw [List.getLast?_append]
  rfl

section Steps
variable {K Client V : Type} [Field K] [LinearOrder K] [FloorRing K] [DecidableEq Client]
variable (c : Parameters K) (float : V → FloatResult K)

/-- The call is a tick that finds a live command. -/
def for_command (e : Event K Client V) (s : RobotBridge K Client) : Bool :=
  match e.op with
  | .on_drive_timer => (s.live_command c e.now).isSome
  | _ => false

/-- The twists among what a call publishes. -/
def twists_of (live : Bool) (sent : List (Message K)) : List (Twist K) :=
  sent.filterMap fun message =>
    match message with
    | .twist linear angular => some ⟨linear, angular, live⟩
    | _ => none

/-- What a call sends on `/cmd_vel/web`. -/
def cmd_vel_web (e : Event K Client V) (s : RobotBridge K Client) : List (Twist K) :=
  twists_of (for_command c e s) (sent_in s (perform c float e s))

/-- What the calls of a run send on `/cmd_vel/web`. -/
def history (m : Node K Client) : List (Event K Client V) → List (Twist K)
  | [] => []
  | e :: es => cmd_vel_web c float e m.bridge ++ history ⟨e.now, perform c float e m.bridge⟩ es

/-- The call engages the E-stop. -/
def Engages (m : Node K Client) (e : Event K Client V) (m' : Node K Client) : Prop :=
  e.op = .set_estop true ∨ (m.bridge.estop = false ∧ m'.bridge.estop = true)

/-- The call is a `drive` that is accepted. -/
def AcceptsDrive (m : Node K Client) (e : Event K Client V) : Prop :=
  ∃ client linear angular speed, e.op = .drive client linear angular speed ∧
    (m.bridge.drive c float e.now client linear angular speed).1 = .ok .ok

/-- A call that does not engage the E-stop. -/
def unstopped (m : Node K Client) (e : Event K Client V) (m' : Node K Client) : Prop :=
  next c float m e m' ∧ ¬ Engages m e m'

/-- And that is no accepted `drive` either. -/
def commandless (m : Node K Client) (e : Event K Client V) (m' : Node K Client) : Prop :=
  unstopped c float m e m' ∧ ¬ AcceptsDrive c float m e

/-- The call drops the command: a tick without a live one, or the holder's release. -/
def Drops (e : Event K Client V) (s : RobotBridge K Client) : Prop :=
  (e.op = .on_drive_timer ∧ s.live_command c e.now = none) ∨
    ∃ client disconnected, e.op = .release client disconnected ∧
      (s.driver_lock.holder e.now).1 = some client

/-- What a call does to the command and to the flag, and what it sends. -/
inductive TwistStep (m : Node K Client) (e : Event K Client V) (m' : Node K Client) : Prop
  | silent (hc : m'.bridge.command = m.bridge.command)
      (hp : m'.bridge.published = m.bridge.published)
      (ht : cmd_vel_web c float e m.bridge = [])
  | live (command : Command K) (hop : e.op = .on_drive_timer)
      (hlive : m.bridge.live_command c e.now = some command)
      (hc : m'.bridge.command = m.bridge.command) (hp : m'.bridge.published.isSome = true)
      (ht : cmd_vel_web c float e m.bridge =
        [⟨guarded_linear c e.now m.bridge command.linear, command.angular, true⟩])
  | dropped (hdrops : Drops c e m.bridge) (hc : m'.bridge.command = none)
      (hp : m'.bridge.published = none)
      (ht : cmd_vel_web c float e m.bridge =
        if m.bridge.published.isSome then [Twist.zero] else [])
  | accepted (h : AcceptsDrive c float m e) (hp : m'.bridge.published = m.bridge.published)
      (ht : cmd_vel_web c float e m.bridge = [])

variable {c float}

omit [Field K] [LinearOrder K] [FloorRing K] [DecidableEq Client] in
theorem twists_of_same {s s' : RobotBridge K Client} (live : Bool) (h : s'.sent = s.sent) :
    twists_of live (sent_in s s') = [] := by
  rw [sent_in_append (h.trans (List.append_nil _).symm)]
  rfl

omit [LinearOrder K] [FloorRing K] [DecidableEq Client] in
theorem publish_zero_published (s : RobotBridge K Client) : s.publish_zero.published = none := by
  unfold RobotBridge.publish_zero
  by_cases h : s.published.isSome = true
  · rw [if_pos h]
  · rw [if_neg h]
    exact Option.not_isSome_iff_eq_none.mp h

omit [LinearOrder K] [FloorRing K] [DecidableEq Client] in
theorem publish_zero_sent (s : RobotBridge K Client) :
    s.publish_zero.sent =
      s.sent ++ if s.published.isSome then [.twist 0 0] else [] := by
  unfold RobotBridge.publish_zero
  by_cases h : s.published.isSome = true
  · rw [if_pos h, if_pos h]
    rfl
  · rw [if_neg h, if_neg h, List.append_nil]

omit [LinearOrder K] [FloorRing K] [DecidableEq Client] in
/-- The zero of a call that drops the command. -/
theorem dropped_twists {s s' : RobotBridge K Client} (hsent : s'.sent = s.sent)
    (hpublished : s'.published = s.published) :
    twists_of false (sent_in s s'.publish_zero) =
      if s.published.isSome then [Twist.zero] else [] := by
  have h := publish_zero_sent s'
  rw [hsent, hpublished] at h
  rw [sent_in_append h]
  split <;> rfl

variable (c float)

/-- A call that keeps the command and the flag and sends no twist. -/
theorem TwistStep.of_kept {m : Node K Client} {e : Event K Client V} (new : List (Message K))
    (hc : (perform c float e m.bridge).command = m.bridge.command)
    (hp : (perform c float e m.bridge).published = m.bridge.published)
    (hsent : (perform c float e m.bridge).sent = m.bridge.sent ++ new)
    (hnew : ∀ live, twists_of live new = []) :
    TwistStep c float m e ⟨e.now, perform c float e m.bridge⟩ := by
  refine .silent hc hp ?_
  rw [cmd_vel_web, sent_in_append hsent]
  exact hnew _

/-- Dropping the command sends the zero that is due. -/
theorem drops_effect {e : Event K Client V} {s : RobotBridge K Client} (h : Drops c e s) :
    (perform c float e s).command = none ∧ (perform c float e s).published = none ∧
      cmd_vel_web c float e s = if s.published.isSome then [Twist.zero] else [] := by
  have hzero : ∃ s' : RobotBridge K Client, perform c float e s = s'.publish_zero ∧
      s'.command = none ∧ s'.sent = s.sent ∧ s'.published = s.published ∧
      for_command c e s = false := by
    obtain ⟨now, op⟩ := e
    rcases h with ⟨rfl, hlive⟩ | ⟨client, disconnected, rfl, hholder⟩
    · refine ⟨{ s with command := none, guard := none }, ?_, rfl, rfl, rfl, ?_⟩
      · simp only [perform, RobotBridge.on_drive_timer, hlive]
      · simp only [for_command, hlive, Option.isSome_none]
    · simp only [perform, RobotBridge.release, hholder, ne_eq, not_true_eq_false, ↓reduceIte]
      cases disconnected with
      | false => exact ⟨_, rfl, rfl, rfl, rfl, rfl⟩
      | true => exact ⟨_, rfl, rfl, rfl, rfl, rfl⟩
  obtain ⟨s', hperform, hcommand, hsent, hpublished, hfor⟩ := hzero
  rw [cmd_vel_web, hfor, hperform]
  exact ⟨(publish_zero_spec s').1.trans hcommand, publish_zero_published s',
    dropped_twists hsent hpublished⟩

/-- A call that publishes the E-stop or does nothing. -/
theorem TwistStep.of_heartbeat {m : Node K Client} {e : Event K Client V}
    (h : perform c float e m.bridge = m.bridge.publish_estop e.now ∨
      perform c float e m.bridge = m.bridge) :
    TwistStep c float m e ⟨e.now, perform c float e m.bridge⟩ := by
  rcases h with h | h
  · refine .of_kept c float [.estop m.bridge.estop] ?_ ?_ ?_ fun _ => rfl
    all_goals rw [h]; rfl
  · refine .of_kept c float [] ?_ ?_ ?_ fun _ => rfl
    all_goals simp only [h, List.append_nil]

theorem tick_step (clock now : K) (s : RobotBridge K Client) :
    TwistStep c float ⟨clock, s⟩ (⟨now, .on_drive_timer⟩ : Event K Client V)
      ⟨now, s.on_drive_timer c now⟩ := by
  cases hlive : s.live_command c now with
  | some command =>
    refine .live command rfl hlive ?_ ?_ ?_
    · simp only [RobotBridge.on_drive_timer, hlive]
      rfl
    · simp only [RobotBridge.on_drive_timer, hlive]
      rfl
    · have hfor : for_command c (⟨now, .on_drive_timer⟩ : Event K Client V) s = true := by
        simp only [for_command, hlive, Option.isSome_some]
      rw [cmd_vel_web, hfor]
      simp only [perform]
      rw [sent_in_append (drive_timer_live c hlive)]
      rfl
  | none =>
    have hdrops : Drops c (⟨now, .on_drive_timer⟩ : Event K Client V) s := .inl ⟨rfl, hlive⟩
    obtain ⟨hc, hp, ht⟩ := drops_effect c float hdrops
    exact .dropped hdrops hc hp ht

theorem release_step (clock now : K) (client : Client) (disconnected : Bool)
    (s : RobotBridge K Client) :
    TwistStep c float ⟨clock, s⟩ (⟨now, .release client disconnected⟩ : Event K Client V)
      ⟨now, s.release now client disconnected⟩ := by
  by_cases hholder : (s.driver_lock.holder now).1 = some client
  · have hdrops : Drops c (⟨now, .release client disconnected⟩ : Event K Client V) s :=
      .inr ⟨client, disconnected, rfl, hholder⟩
    obtain ⟨hc, hp, ht⟩ := drops_effect c float hdrops
    exact .dropped hdrops hc hp ht
  · have hrelease : s.release now client disconnected =
        { s with driver_lock := (s.driver_lock.holder now).2 } := by
      simp only [RobotBridge.release, ne_eq, hholder, not_false_eq_true, ↓reduceIte]
    refine .silent ?_ ?_ ?_
    · simp only [hrelease]
    · simp only [hrelease]
    · rw [cmd_vel_web]
      simp only [perform, hrelease]
      exact twists_of_same _ rfl

theorem drive_step (clock now : K) (client : Client) (linear angular speed : V)
    (s : RobotBridge K Client) :
    TwistStep c float ⟨clock, s⟩ ⟨now, .drive client linear angular speed⟩
      ⟨now, (s.drive c float now client linear angular speed).2⟩ := by
  have hcases := drive_cases c float now client linear angular speed s
  have hnone := twists_of_same (for_command c ⟨now, .drive client linear angular speed⟩ s)
    (drive_sent c float now client linear angular speed s)
  by_cases hok : (s.drive c float now client linear angular speed).1 = .ok .ok
  · refine .accepted ⟨client, linear, angular, speed, rfl, hok⟩ ?_ hnone
    generalize s.drive c float now client linear angular speed = r at hcases
    cases hcases <;> rfl
  · have hkept : (s.drive c float now client linear angular speed).2.command = s.command ∧
        (s.drive c float now client linear angular speed).2.published = s.published := by
      generalize s.drive c float now client linear angular speed = r at hcases hok
      cases hcases with
      | ok v w he hfree hscale => exact absurd rfl hok
      | estop h | busy other h hne hheld | overflow e h hfree => exact ⟨rfl, rfl⟩
    exact .silent hkept.1 hkept.2 hnone

omit [FloorRing K] [DecidableEq Client] in
/-- A message on `/e_stop` that does not engage the E-stop leaves the command alone. -/
theorem on_estop_kept (now : K) (engaged : Bool) (s : RobotBridge K Client)
    (h : ¬ (s.estop = false ∧ (s.on_estop now engaged).estop = true)) :
    (s.on_estop now engaged).command = s.command ∧
      (s.on_estop now engaged).published = s.published := by
  by_contra hchanged
  refine h ?_
  unfold RobotBridge.on_estop at hchanged ⊢
  dsimp only at hchanged ⊢
  split at hchanged
  · exact absurd ⟨rfl, rfl⟩ hchanged
  · rename_i hecho
    rw [if_neg hecho]
    split at hchanged
    · exact absurd ⟨rfl, rfl⟩ hchanged
    · rename_i hne
      rw [if_neg hne]
      cases engaged with
      | false => exact absurd ⟨rfl, rfl⟩ hchanged
      | true =>
        refine ⟨?_, rfl⟩
        cases hs : s.estop with
        | false => rfl
        | true => exact absurd hs.symm hne

omit [FloorRing K] in
theorem aim_gizmo_kept (now : K) (client : Client) (yaw pitch : V) (s : RobotBridge K Client) :
    (s.aim_gizmo c float now client yaw pitch).2.command = s.command ∧
      (s.aim_gizmo c float now client yaw pitch).2.published = s.published ∧
      ∃ new, (s.aim_gizmo c float now client yaw pitch).2.sent = s.sent ++ new ∧
        ∀ live, twists_of live new = [] := by
  unfold RobotBridge.aim_gizmo
  split
  · exact ⟨rfl, rfl, [], (List.append_nil _).symm, fun _ => rfl⟩
  split
  · exact ⟨rfl, rfl, [], (List.append_nil _).symm, fun _ => rfl⟩
  dsimp only
  split
  · exact ⟨rfl, rfl, [], (List.append_nil _).symm, fun _ => rfl⟩
  split
  · exact ⟨rfl, rfl, [], (List.append_nil _).symm, fun _ => rfl⟩
  split
  · exact ⟨rfl, rfl, [], (List.append_nil _).symm, fun _ => rfl⟩
  · exact ⟨rfl, rfl, [.gizmo _ _], rfl, fun _ => rfl⟩

theorem twist_step {m m' : Node K Client} {e : Event K Client V}
    (h : unstopped c float m e m') : TwistStep c float m e m' := by
  obtain ⟨⟨-, rfl⟩, hstop⟩ := h
  obtain ⟨now, op⟩ := e
  obtain ⟨clock, s⟩ := m
  cases op with
  | on_drive_timer => exact tick_step c float clock now s
  | release client disconnected => exact release_step c float clock now client disconnected s
  | drive client linear angular speed =>
    exact drive_step c float clock now client linear angular speed s
  | set_estop engaged =>
    cases engaged with
    | true => exact absurd (.inl rfl) hstop
    | false =>
      refine .silent rfl rfl ?_
      rw [cmd_vel_web]
      simp only [perform]
      rw [sent_in_append (set_estop_sent now false s)]
      rfl
  | on_estop engaged =>
    obtain ⟨hc, hp⟩ := on_estop_kept now engaged s fun hengaged => hstop (.inr hengaged)
    exact .silent hc hp (twists_of_same _ (on_estop_sent now engaged s))
  | on_estop_timer =>
    apply TwistStep.of_heartbeat c float
    simp only [perform, RobotBridge.on_estop_timer]
    split
    · exact .inl rfl
    · exact .inr rfl
  | on_estop_startup =>
    apply TwistStep.of_heartbeat c float
    simp only [perform, RobotBridge.on_estop_startup]
    split
    · exact .inl rfl
    · exact .inr rfl
  | aim_gizmo client yaw pitch =>
    obtain ⟨hc, hp, new, hsent, hnew⟩ := aim_gizmo_kept c float now client yaw pitch s
    exact .of_kept c float new hc hp hsent hnew
  | set_mode mode =>
    by_cases hm : mode = .DRIVE
    · refine .of_kept c float [.gizmo 0 0] ?_ ?_ ?_ fun _ => rfl
      all_goals simp only [perform, RobotBridge.set_mode, if_pos hm]; rfl
    · refine .of_kept c float [] ?_ ?_ ?_ fun _ => rfl
      all_goals simp only [perform, RobotBridge.set_mode, if_neg hm, List.append_nil]
  | on_battery voltage =>
    refine .of_kept c float [] ?_ ?_ ?_ fun _ => rfl
    all_goals
      simp only [perform, RobotBridge.on_battery, List.append_nil]
      split
      · split <;> rfl
      · rfl
  | on_image =>
    refine .of_kept c float [] ?_ ?_ ?_ fun _ => rfl
    all_goals
      simp only [perform, RobotBridge.on_image, List.append_nil]
      split <;> rfl
  | update_image_subscription =>
    refine .of_kept c float [] ?_ ?_ ?_ fun _ => rfl
    all_goals
      simp only [perform, RobotBridge.update_image_subscription, List.append_nil]
      split <;> split <;> rfl
  | snapshot =>
    refine .of_kept c float [] ?_ ?_ ?_ fun _ => rfl
    all_goals
      simp only [perform, RobotBridge.snapshot, List.append_nil]
      split <;> rfl
  | on_range side range => exact .of_kept c float [] rfl rfl (List.append_nil _).symm fun _ => rfl
  | on_odom linear angular => exact .of_kept c float [] rfl rfl (List.append_nil _).symm fun _ => rfl
  | on_person_status data => exact .of_kept c float [] rfl rfl (List.append_nil _).symm fun _ => rfl
  | on_graph_timer follower detector =>
    exact .of_kept c float [] rfl rfl (List.append_nil _).symm fun _ => rfl
  | may_control client => exact .of_kept c float [] rfl rfl (List.append_nil _).symm fun _ => rfl
  | set_streaming streaming =>
    exact .of_kept c float [] rfl rfl (List.append_nil _).symm fun _ => rfl

theorem history_append {m m' : Node K Client} {es : List (Event K Client V)}
    (h : Run (next c float) m es m') (fs : List (Event K Client V)) :
    history c float m (es ++ fs) = history c float m es ++ history c float m' fs := by
  have hfold : ∀ (es : List (Event K Client V)) (m : Node K Client),
      history c float m (es ++ fs) =
        history c float m es ++ history c float (after c float m es) fs := by
    intro es
    induction es with
    | nil => exact fun _ => rfl
    | cons e es ih =>
      intro m
      rw [List.cons_append, history, history, ih, List.append_assoc]
      rfl
  rw [hfold]
  congr 2
  exact h.foldl_eq fun a e b hn => hn.2

/-- The flag is up while the last twist was for a command; all others are zeros. -/
structure Flagged (m : Node K Client) (twists : List (Twist K)) : Prop where
  flag : m.bridge.published.isSome = ticked twists
  zero : ∀ x ∈ twists, x.live = false → x = Twist.zero

theorem Flagged.step {m m' : Node K Client} {e : Event K Client V} {twists : List (Twist K)}
    (h : Flagged m twists) (hs : TwistStep c float m e m') :
    Flagged m' (twists ++ cmd_vel_web c float e m.bridge) := by
  cases hs with
  | silent hc hp ht =>
    rw [ht, List.append_nil]
    exact ⟨by rw [hp]; exact h.flag, h.zero⟩
  | accepted ha hp ht =>
    rw [ht, List.append_nil]
    exact ⟨by rw [hp]; exact h.flag, h.zero⟩
  | live command hop hlive hc hp ht =>
    rw [ht]
    refine ⟨by rw [ticked_snoc, hp], fun x hx hdead => ?_⟩
    rcases List.mem_append.mp hx with hx | hx
    · exact h.zero x hx hdead
    · obtain rfl := List.mem_singleton.mp hx
      cases hdead
  | dropped hdrops hc hp ht =>
    rw [ht]
    by_cases hdue : m.bridge.published.isSome = true
    · rw [if_pos hdue]
      refine ⟨by rw [ticked_snoc, hp]; rfl, fun x hx hdead => ?_⟩
      rcases List.mem_append.mp hx with hx | hx
      · exact h.zero x hx hdead
      · exact List.mem_singleton.mp hx
    · rw [if_neg hdue, List.append_nil]
      exact ⟨by rw [hp, ← h.flag, Bool.eq_false_iff.mpr hdue]; rfl, h.zero⟩

theorem Flagged.run {m m' : Node K Client} {es : List (Event K Client V)}
    {twists : List (Twist K)} (h : Flagged m twists) (hr : Run (unstopped c float) m es m') :
    Flagged m' (twists ++ history c float m es) := by
  induction hr with
  | nil => rwa [history, List.append_nil]
  | snoc hr hn ih =>
    rw [history_append c float (hr.mono fun _ _ _ hu => hu.1), ← List.append_assoc, history,
      history, List.append_nil]
    exact ih.step c float (twist_step c float hn)

omit [LinearOrder K] [FloorRing K] [DecidableEq Client] in
theorem Flagged.start (t : K) : Flagged (Web.start c t : Node K Client) [] := by
  refine ⟨?_, by rintro x ⟨⟩⟩
  unfold Web.start RobotBridge.init
  dsimp only
  split <;> rfl

/-- The driver of the last command lets go: it releases the lock that it holds, or the
command is `command_timeout` old at a tick or when another client lets go. -/
def LetsGo (client : Client) (command : Command K) (m : Node K Client) (e : Event K Client V) :
    Prop :=
  (e.op = .on_drive_timer ∧ c.command_timeout ≤ e.now - command.time) ∨
    ∃ other disconnected, e.op = .release other disconnected ∧
      (m.bridge.driver_lock.holder e.now).1 = some other ∧
      (other = client ∨ c.command_timeout ≤ e.now - command.time)

/-- A call after the last accepted command with which nobody lets go. -/
def streaming_on (client : Client) (command : Command K) (m : Node K Client)
    (e : Event K Client V) (m' : Node K Client) : Prop :=
  commandless c float m e m' ∧ ¬ LetsGo c client command m e

/-- The command is stored, and its client holds the lock unless that ran out. -/
structure Pending (client : Client) (command : Command K) (m : Node K Client) : Prop where
  stored : m.bridge.command = some command
  released : m.bridge.estop = false
  timeout : m.bridge.driver_lock.timeout = c.driver_timeout
  holds : Holds client command m ∨ c.driver_timeout ≤ m.clock - command.time
  clock : command.time ≤ m.clock

/-- No command is stored, and no zero is due. -/
structure Silent (m : Node K Client) : Prop where
  command : m.bridge.command = none
  published : m.bridge.published = none

variable [IsStrictOrderedRing K]

omit [FloorRing K] [DecidableEq Client] in
/-- A call that drops the pending command is one with which its driver lets go. -/
theorem Pending.lets_go (hle : c.command_timeout ≤ c.driver_timeout) {client : Client}
    {command : Command K} {m : Node K Client} (h : Pending c client command m)
    {e : Event K Client V} (hnow : m.clock ≤ e.now) (hdrops : Drops c e m.bridge) :
    LetsGo c client command m e := by
  rcases hdrops with ⟨hop, hlive⟩ | ⟨other, disconnected, hop, hholder⟩
  · refine .inl ⟨hop, ?_⟩
    unfold RobotBridge.live_command at hlive
    rw [h.stored, Option.filter_some] at hlive
    by_contra hyoung
    rw [decide_eq_false hyoung] at hlive
    cases hlive
  · refine .inr ⟨other, disconnected, hop, hholder, ?_⟩
    rcases h.holds with hholds | hidle
    · left
      have hdriver := (DriverLock.held_of_holder hholder).driver
      rw [hholds.driver] at hdriver
      exact (Option.some.inj hdriver).symm
    · right
      linarith

theorem Pending.step (hle : c.command_timeout ≤ c.driver_timeout) {client : Client}
    {command : Command K} {m m' : Node K Client} {e : Event K Client V}
    (h : Pending c client command m) (hn : streaming_on c float client command m e m') :
    Pending c client command m' ∧ ∀ x ∈ cmd_vel_web c float e m.bridge, x.live = true := by
  obtain ⟨⟨⟨hnext, hstop⟩, haccepts⟩, hgo⟩ := hn
  have htwist := twist_step c float ⟨hnext, hstop⟩
  have hkept : m'.bridge.command = m.bridge.command ∧
      ∀ x ∈ cmd_vel_web c float e m.bridge, x.live = true := by
    cases htwist with
    | silent hc hp ht => exact ⟨hc, by rw [ht]; rintro x ⟨⟩⟩
    | live command hop hlive hc hp ht =>
      refine ⟨hc, fun x hx => ?_⟩
      rw [ht] at hx
      rw [List.mem_singleton.mp hx]
    | dropped hdrops hc hp ht => exact absurd (h.lets_go c hle hnext.1 hdrops) hgo
    | accepted ha hp ht => exact absurd ha haccepts
  refine ⟨?_, hkept.2⟩
  have hreleased : m'.bridge.estop = false := by
    by_contra hengaged
    exact hstop (.inr ⟨h.released, Bool.not_eq_false _ ▸ hengaged⟩)
  have hstored : m'.bridge.command = some command := hkept.1.trans h.stored
  have hstep := perform_command c float e m.bridge fun he => by
    rw [h.released] at he
    cases he
  obtain ⟨hnow, rfl⟩ := hnext
  cases hstep with
  | dropped hc ht =>
    rw [hstored] at hc
    cases hc
  | stored other linear_axis angular_axis speed linear angular hop hok =>
    exact absurd ⟨other, linear_axis, angular_axis, speed, hop, hok⟩ haccepts
  | kept hc hs ht hl =>
    refine ⟨hstored, hreleased, ht.trans h.timeout, ?_, h.clock.trans hnow⟩
    rcases h.holds with hholds | hidle
    · by_cases hheld : m.bridge.driver_lock.HeldBy client e.now
      · left
        rcases (hl client hheld).1 with hlock | hlock
        · exact ⟨by rw [hlock]; exact hholds.driver, by rw [hlock]; exact hholds.last_command⟩
        · exact ⟨by rw [hlock]; rfl, e.now, by rw [hlock]; rfl, h.clock.trans hnow⟩
      · exact .inr (idle_of_expired c h.timeout hholds hheld)
    · right
      change c.driver_timeout ≤ e.now - command.time
      linarith

theorem Pending.run (hle : c.command_timeout ≤ c.driver_timeout) {client : Client}
    {command : Command K} {m m' : Node K Client} {es : List (Event K Client V)}
    (h : Pending c client command m) (hr : Run (streaming_on c float client command) m es m') :
    Pending c client command m' ∧ ∀ x ∈ history c float m es, x.live = true := by
  induction hr with
  | nil => exact ⟨h, by rintro x ⟨⟩⟩
  | snoc hr hn ih =>
    obtain ⟨hpending, hlive⟩ := ih
    obtain ⟨hnext, hsent⟩ := hpending.step c float hle hn
    refine ⟨hnext, ?_⟩
    rw [history_append c float (hr.mono fun _ _ _ hs => hs.1.1.1), history, history,
      List.append_nil]
    intro x hx
    rcases List.mem_append.mp hx with hx | hx
    · exact hlive x hx
    · exact hsent x hx

omit [IsStrictOrderedRing K] in
/-- When the driver lets go, a zero is sent if one is due, and then all is silent. -/
theorem Pending.go {client : Client} {command : Command K} {m m' : Node K Client}
    {e : Event K Client V} (h : Pending c client command m) (hn : next c float m e m')
    (hgo : LetsGo c client command m e) :
    Silent m' ∧ cmd_vel_web c float e m.bridge =
      if m.bridge.published.isSome then [Twist.zero] else [] := by
  have hdrops : Drops c e m.bridge := by
    rcases hgo with ⟨hop, hold⟩ | ⟨other, disconnected, hop, hholder, -⟩
    · refine .inl ⟨hop, ?_⟩
      unfold RobotBridge.live_command
      rw [h.stored, Option.filter_some, decide_eq_true hold]
      rfl
    · exact .inr ⟨other, disconnected, hop, hholder⟩
  obtain ⟨-, rfl⟩ := hn
  obtain ⟨hc, hp, ht⟩ := drops_effect c float hdrops
  exact ⟨⟨hc, hp⟩, ht⟩

omit [IsStrictOrderedRing K] in
theorem Silent.step {m m' : Node K Client} {e : Event K Client V} (h : Silent m)
    (hn : commandless c float m e m') : Silent m' ∧ cmd_vel_web c float e m.bridge = [] := by
  cases twist_step c float hn.1 with
  | silent hc hp ht => exact ⟨⟨hc.trans h.command, hp.trans h.published⟩, ht⟩
  | live command hop hlive hc hp ht =>
    unfold RobotBridge.live_command at hlive
    rw [h.command] at hlive
    cases hlive
  | dropped hdrops hc hp ht =>
    rw [h.published] at ht
    exact ⟨⟨hc, hp⟩, ht⟩
  | accepted ha hp ht => exact absurd ha hn.2

omit [IsStrictOrderedRing K] in
theorem Silent.run {m m' : Node K Client} {es : List (Event K Client V)} (h : Silent m)
    (hr : Run (commandless c float) m es m') : history c float m es = [] := by
  have hboth : Silent m' ∧ history c float m es = [] := by
    induction hr with
    | nil => exact ⟨h, rfl⟩
    | snoc hr hn ih =>
      obtain ⟨hsilent, hnone⟩ := ih.1.step c float hn
      refine ⟨hsilent, ?_⟩
      rw [history_append c float (hr.mono fun _ _ _ hc => hc.1.1), ih.2, history, hnone]
      rfl
  exact hboth.2

omit [IsStrictOrderedRing K] in
/-- An accepted command is pending. -/
theorem Accepts.pending {client : Client} {command : Command K} {m m' : Node K Client}
    {e : Event K Client V} (ha : Accepts c float client command m e m')
    (ht : m.bridge.driver_lock.timeout = c.driver_timeout) :
    unstopped c float m e m' ∧ Pending c client command m' := by
  obtain ⟨linear, angular, speed, hop, hok, hscale⟩ := ha.call
  have hestop : m'.bridge.estop = m.bridge.estop := by
    rw [ha.next.2]
    refine ((perform_untouched c float e m.bridge).estop ?_).1
    rw [hop]
    rfl
  have hreleased : m'.bridge.estop = false := hestop.trans ha.released
  refine ⟨⟨ha.next, ?_⟩, ?_, hreleased, ?_, .inl ⟨ha.driver, e.now, ha.last_command, ?_⟩, ?_⟩
  · rintro (hset | ⟨-, hengaged⟩)
    · rw [hop] at hset
      cases hset
    · rw [hreleased] at hengaged
      cases hengaged
  · have hdrive := drive_cases c float e.now client linear angular speed m.bridge
    rw [ha.next.2, perform, hop]
    dsimp only
    generalize m.bridge.drive c float e.now client linear angular speed = r at hdrive hok
    cases hdrive with
    | ok v w he hfree hscale' =>
      obtain ⟨rfl, rfl⟩ := Prod.mk.inj (Except.ok.inj (hscale'.symm.trans hscale))
      rw [← ha.time]
    | estop h | busy other h hne hheld | overflow e h hfree => cases hok
  · have hdrive := drive_cases c float e.now client linear angular speed m.bridge
    rw [ha.next.2, perform, hop]
    dsimp only
    generalize m.bridge.drive c float e.now client linear angular speed = r at hdrive hok
    cases hdrive with
    | ok v w he hfree hscale' => exact ht
    | estop h | busy other h hne hheld | overflow e h hfree => cases hok
  · exact ha.time.le
  · rw [ha.next.2]
    exact ha.time.le

omit [FloorRing K] [DecidableEq Client] in
/-- A driver that releases within `driver_timeout` of the last command lets go. -/
theorem Pending.releases {client : Client} {command : Command K} {m : Node K Client}
    (h : Pending c client command m) {e : Event K Client V} (hnow : m.clock ≤ e.now)
    {disconnected : Bool} (hop : e.op = .release client disconnected)
    (hyoung : e.now - command.time < c.driver_timeout) : LetsGo c client command m e := by
  refine .inr ⟨client, disconnected, hop, ?_, .inl rfl⟩
  rcases h.holds with hholds | hidle
  · have hheld : m.bridge.driver_lock.HeldBy client e.now := by
      by_contra hnot
      exact absurd (idle_of_expired c h.timeout hholds hnot) (not_le.mpr hyoung)
    rw [DriverLock.holder_held hheld]
  · linarith

/-- Without an engaged E-stop, after the last accepted command: until the driver lets go,
only ticks with a live command send a twist. The call with which it lets go sends one zero
if the last twist was for a command, and nothing else; after it nothing is sent, so that the
last twist, if there is one, is the zero. -/
theorem letting_go_sends_one_zero (hle : c.command_timeout ≤ c.driver_timeout) {t : K}
    {before since : List (Event K Client V)} {d : Event K Client V} {m1 m2 m : Node K Client}
    {client : Client} {command : Command K}
    (hbefore : Run (unstopped c float) (start c t) before m1)
    (ha : Accepts c float client command m1 d m2) (hsince : Run (commandless c float) m2 since m) :
    ((Run (streaming_on c float client command) m2 since m ∧
        ∀ x ∈ history c float m2 since, x.live = true) ∨
      ∃ mid e rest m3 m4, since = mid ++ e :: rest ∧
        Run (streaming_on c float client command) m2 mid m3 ∧
        LetsGo c client command m3 e ∧ next c float m3 e m4 ∧
        Run (commandless c float) m4 rest m ∧
        (∀ x ∈ history c float m2 mid, x.live = true) ∧
        cmd_vel_web c float e m3.bridge =
          (if ticked (history c float (start c t) (before ++ d :: mid)) then [Twist.zero]
          else []) ∧
        history c float m4 rest = [] ∧
        ∀ x, (history c float (start c t) (before ++ d :: since)).getLast? = some x →
          x = Twist.zero) ∧
    ∀ mid m3 (e : Event K Client V) disconnected, Run (streaming_on c float client command) m2 mid m3 →
      m3.clock ≤ e.now → e.op = .release client disconnected →
      e.now - command.time < c.driver_timeout → LetsGo c client command m3 e := by
  have htimeout := (Authorised.run c float hle (hbefore.mono fun _ _ _ h => h.1)).timeout
  obtain ⟨hd, hpending⟩ := ha.pending c float htimeout
  have hto : Run (unstopped c float) (start c t) (before ++ [d]) m2 := hbefore.snoc hd
  have hflagged := Flagged.run c float (Flagged.start c t) hto
  constructor
  · rcases hsince.split_first (fun m e _ => LetsGo c client command m e) with
      hall | ⟨mid, e, rest, m3, m4, rfl, hmid, hn, hgo, hrest⟩
    · exact .inl ⟨hall, (hpending.run c float hle hall).2⟩
    · right
      obtain ⟨hpending', hlive⟩ := hpending.run c float hle hmid
      obtain ⟨hsilent, hzero⟩ := hpending'.go c float hn.1.1 hgo
      have hquiet := hsilent.run c float hrest
      have hflagged' := Flagged.run c float hflagged (hmid.mono fun _ _ _ hs => hs.1.1)
      have hsplit : ∀ es, history c float (start c t) (before ++ d :: es) =
          history c float (start c t) (before ++ [d]) ++ history c float m2 es := by
        intro es
        rw [List.append_cons]
        exact history_append c float (hto.mono fun _ _ _ hs => hs.1) es
      rw [List.nil_append, ← hsplit] at hflagged'
      rw [hflagged'.flag] at hzero
      refine ⟨mid, e, rest, m3, m4, rfl, hmid, hgo, hn.1.1, hrest, hlive, hzero, hquiet, ?_⟩
      have hwhole : history c float (start c t) (before ++ d :: (mid ++ e :: rest)) =
          history c float (start c t) (before ++ d :: mid) ++ cmd_vel_web c float e m3.bridge := by
        obtain ⟨-, rfl⟩ := hn.1.1
        rw [hsplit, history_append c float (hmid.mono fun _ _ _ hs => hs.1.1.1), history, hquiet,
          List.append_nil, ← List.append_assoc, ← hsplit]
      have hlast := hflagged'.step c float (twist_step c float hn.1)
      rw [← hwhole] at hlast
      intro x hx
      refine hlast.zero x (List.mem_of_getLast? hx) ?_
      have hdown := hlast.flag
      rw [hsilent.published, ticked, hx] at hdown
      exact hdown.symm
  · intro mid m3 e disconnected hmid hnow hop hyoung
    exact (hpending.run c float hle hmid).1.releases c hnow hop hyoung

end Steps

section Examples

def let_go : Call := ⟨2 / 5, .release "phone" false⟩

def late_tick : Call := ⟨1 / 2, .on_drive_timer⟩

theorem unstopped_reached (es : List Call) (e : Call) (hclock : (reached es).clock ≤ e.now)
    (hop : e.op ≠ .set_estop true) (hestop : (reached (es ++ [e])).bridge.estop = false) :
    unstopped web_controller_yaml float_of (reached es) e (reached (es ++ [e])) := by
  have hstep : reached (es ++ [e]) =
      ⟨e.now, perform web_controller_yaml float_of e (reached es).bridge⟩ :=
    List.foldl_concat ..
  refine ⟨⟨hclock, hstep⟩, ?_⟩
  rintro (hset | ⟨-, hengaged⟩)
  · exact hop hset
  · rw [hestop] at hengaged
    cases hengaged

theorem commandless_reached (es : List Call) (e : Call) (hclock : (reached es).clock ≤ e.now)
    (hop : e.op = .on_drive_timer ∨ ∃ disconnected, e.op = .release "phone" disconnected)
    (hestop : (reached (es ++ [e])).bridge.estop = false) :
    commandless web_controller_yaml float_of (reached es) e (reached (es ++ [e])) := by
  refine ⟨unstopped_reached es e hclock ?_ hestop, ?_⟩
  · rintro hset
    rcases hop with hop | ⟨_, hop⟩ <;> rw [hset] at hop <;> cases hop
  · rintro ⟨_, _, _, _, hdrive, -⟩
    rcases hop with hop | ⟨_, hop⟩ <;> rw [hdrive] at hop <;> cases hop

/-- "phone" drives, a tick sends the command, "phone" releases, and the next tick is silent. -/
theorem drive_off_ends_in_zero :
    (history web_controller_yaml float_of (start web_controller_yaml 0)
      (drive_off ++ [tick, let_go, late_tick])).getLast? = some Twist.zero := by
  have hbefore : Run (unstopped web_controller_yaml float_of) (start web_controller_yaml 0)
      (drive_off.take 2) (reached (drive_off.take 2)) :=
    (Run.nil.snoc (unstopped_reached [] _ (by decide +kernel) (by rintro ⟨⟩)
      (by decide +kernel))).snoc (unstopped_reached (drive_off.take 1) _ (by decide +kernel)
      (by rintro ⟨⟩) (by decide +kernel))
  have haccepts : Accepts web_controller_yaml float_of "phone" ⟨2 / 5, 0, 1 / 5⟩
      (reached (drive_off.take 2)) ⟨1 / 5, .drive "phone" (.fin 1) (.fin 0) (.fin 1)⟩
      (reached drive_off) := by
    refine ⟨⟨by decide +kernel, rfl⟩, ⟨_, _, _, rfl, rfl, ?_⟩, rfl, by decide +kernel,
      .inl (by decide +kernel), by decide +kernel, by decide +kernel⟩
    have hscale : (scale_command float_of (.fin 1) (.fin 0) (.fin 1) (2 / 5 : Rat) (3 / 2)
        3).toOption = some (2 / 5, 0) := by decide +kernel
    change scale_command float_of (.fin 1) (.fin 0) (.fin 1) (0.4 : Rat) 1.5 3.0 = _
    norm_num
    cases hs : scale_command float_of (.fin 1) (.fin 0) (.fin 1) (2 / 5 : Rat) (3 / 2) 3 with
    | error e => rw [hs] at hscale; cases hscale
    | ok r => rw [hs] at hscale; exact congrArg _ (Option.some.inj hscale)
  have hsince : Run (commandless web_controller_yaml float_of) (reached drive_off)
      [tick, let_go, late_tick] (reached (drive_off ++ [tick, let_go, late_tick])) :=
    ((Run.nil.snoc (commandless_reached drive_off tick (by decide +kernel) (.inl rfl)
      (by decide +kernel))).snoc (commandless_reached (drive_off ++ [tick]) let_go
      (by decide +kernel) (.inr ⟨_, rfl⟩) (by decide +kernel))).snoc
      (commandless_reached (drive_off ++ [tick, let_go]) late_tick (by decide +kernel) (.inl rfl)
      (by decide +kernel))
  rcases (letting_go_sends_one_zero web_controller_yaml float_of (by decide +kernel) hbefore
    haccepts hsince).1 with ⟨-, hlive⟩ | ⟨_, _, _, _, _, -, -, -, -, -, -, -, -, hlast⟩
  · have hzero : Twist.zero ∈ history web_controller_yaml float_of (reached drive_off)
        [tick, let_go, late_tick] := by decide +kernel
    exact absurd (hlive _ hzero) Bool.false_ne_true
  · have hsome : (history web_controller_yaml float_of (start web_controller_yaml 0)
        (drive_off ++ [tick, let_go, late_tick])).getLast?.isSome = true := by decide +kernel
    obtain ⟨x, hx⟩ := Option.isSome_iff_exists.mp hsome
    rw [hx]
    exact congrArg some (hlast x hx)

end Examples

end IotRobot.Web
