import IotRobot.Web.Runs

/-!
# What one call can do

The driver lock and the stored command: a call drops the command, stores an accepted one,
or keeps it together with the lock of its client. The messages: only `on_drive_timer` sends
a twist that is not zero. The E-stop: four methods change it or speak about it.
-/

namespace IotRobot.Web

open Lib

set_option autoImplicit false

namespace DriverLock
variable {K Client : Type} [Field K] [LinearOrder K]
variable {lock : DriverLock K Client} {client other : Client} {now : K}

/-- `client` holds the lock at `now`. -/
structure HeldBy (lock : DriverLock K Client) (client : Client) (now : K) : Prop where
  driver : lock.driver = some client
  fresh : lock.expired now = false

/-- The lock once `client` has a request granted at `now`. -/
def taken (lock : DriverLock K Client) (client : Client) (now : K) : DriverLock K Client :=
  { timeout := lock.timeout, driver := some client, last_command := .fin now }

/-- Nobody but `client` holds the lock at `now`. -/
def FreeFor (lock : DriverLock K Client) (client : Client) (now : K) : Prop :=
  (lock.holder now).1 = none ∨ (lock.holder now).1 = some client

theorem holder_held (h : lock.HeldBy client now) : lock.holder now = (some client, lock) := by
  unfold holder
  have hc : ¬(lock.driver ≠ none ∧ lock.expired now = true) := by
    rintro ⟨_, he⟩
    rw [h.fresh] at he
    cases he
  rw [if_neg hc, h.driver]

/-- Whoever `holder` names holds the lock, which it then leaves as it is. -/
theorem held_of_holder (h : (lock.holder now).1 = some client) : lock.HeldBy client now := by
  unfold holder at h
  by_cases hc : lock.driver ≠ none ∧ lock.expired now = true
  · rw [if_pos hc] at h
    cases h
  · rw [if_neg hc] at h
    refine ⟨h, ?_⟩
    have hd : lock.driver ≠ none := fun hn => by rw [hn] at h; cases h
    exact Bool.eq_false_iff.mpr fun he => hc ⟨hd, he⟩

theorem FreeFor.eq_of_held (h : lock.FreeFor client now) (hheld : lock.HeldBy other now) :
    client = other := by
  unfold FreeFor at h
  rw [holder_held hheld] at h
  rcases h with hnone | hsome
  · cases hnone
  · exact (Option.some.inj hsome).symm

theorem holder_timeout : (lock.holder now).2.timeout = lock.timeout := by
  unfold holder
  split <;> rfl

/-- A second look at the same instant sees the same holder. -/
theorem holder_holder : (lock.holder now).2.holder now = lock.holder now := by
  by_cases hc : lock.driver ≠ none ∧ lock.expired now = true
  · have hh : lock.holder now = (none, { lock with driver := none }) := by
      unfold holder
      rw [if_pos hc]
    rw [hh]
    rfl
  · have hh : lock.holder now = (lock.driver, lock) := by
      unfold holder
      rw [if_neg hc]
    rw [hh]
    exact hh

variable [DecidableEq Client]

theorem request_refused (h : (lock.holder now).1 = some other) (hne : other ≠ client) :
    lock.request client now = (false, (lock.holder now).2) := by
  unfold request
  rcases hh : lock.holder now with ⟨who, kept⟩
  rw [hh] at h
  change who = some other at h
  subst h
  have hc : (some other : Option Client) ≠ none ∧ some other ≠ some client :=
    ⟨Option.some_ne_none _, fun he => hne (Option.some.inj he)⟩
  simp only
  rw [if_pos hc]

theorem request_granted (h : lock.FreeFor client now) :
    lock.request client now = (true, lock.taken client now) := by
  unfold request taken
  unfold FreeFor at h
  have ht : (lock.holder now).2.timeout = lock.timeout := holder_timeout
  rcases hh : lock.holder now with ⟨who, kept⟩
  rw [hh] at h ht
  change kept.timeout = lock.timeout at ht
  have hc : ¬(who ≠ none ∧ who ≠ some client) := by
    rintro ⟨h1, h2⟩
    exact h.elim h1 h2
  simp only
  rw [if_neg hc, ht]

/-- Asking for the holder first makes no difference to a request at the same instant. -/
theorem holder_request : (lock.holder now).2.request client now = lock.request client now := by
  unfold request
  rw [holder_holder]

/-- A request is granted to whoever holds the lock and to anyone while it is free. -/
theorem request_cases (lock : DriverLock K Client) (client : Client) (now : K) :
    (∃ other, other ≠ client ∧ lock.HeldBy other now ∧
      lock.request client now = (false, lock)) ∨
    (lock.FreeFor client now ∧
      lock.request client now = (true, lock.taken client now)) := by
  cases hw : (lock.holder now).1 with
  | none => exact .inr ⟨.inl hw, request_granted (.inl hw)⟩
  | some other =>
    by_cases heq : other = client
    · subst heq
      exact .inr ⟨.inr hw, request_granted (.inr hw)⟩
    · have hheld := held_of_holder hw
      refine .inl ⟨other, heq, hheld, ?_⟩
      rw [request_refused hw heq, holder_held hheld]

end DriverLock

section Drive
variable {K Client V : Type} [Field K] [LinearOrder K] [DecidableEq Client]
variable (c : Parameters K) (float : V → FloatResult K)

/-- How `drive` answers at `now`, and the bridge it leaves. -/
inductive DriveOutcome (now : K) (client : Client) (linear_axis angular_axis speed : V)
    (s : RobotBridge K Client) : Except Overflow RobotBridge.DriveReply × RobotBridge K Client → Prop
  | estop (h : s.estop = true) :
      DriveOutcome now client linear_axis angular_axis speed s (.ok .estop, s)
  | busy (other : Client) (h : s.estop = false) (hne : other ≠ client)
      (hheld : s.driver_lock.HeldBy other now) :
      DriveOutcome now client linear_axis angular_axis speed s (.ok .busy, s)
  | overflow (e : Overflow) (h : s.estop = false) (hfree : s.driver_lock.FreeFor client now) :
      DriveOutcome now client linear_axis angular_axis speed s
        (.error e, { s with driver_lock := s.driver_lock.taken client now })
  | ok (linear angular : K) (h : s.estop = false) (hfree : s.driver_lock.FreeFor client now)
      (hscale : scale_command float linear_axis angular_axis speed c.max_linear c.max_angular
        c.turbo_speed = .ok (linear, angular)) :
      DriveOutcome now client linear_axis angular_axis speed s
        (.ok .ok, { s with
          driver_lock := s.driver_lock.taken client now
          command := some ⟨linear, angular, now⟩ })

theorem drive_cases (now : K) (client : Client) (linear_axis angular_axis speed : V)
    (s : RobotBridge K Client) :
    DriveOutcome c float now client linear_axis angular_axis speed s
      (s.drive c float now client linear_axis angular_axis speed) := by
  unfold RobotBridge.drive
  by_cases he : s.estop = true
  · rw [if_pos he]
    exact .estop he
  · rw [if_neg he]
    have he : s.estop = false := Bool.eq_false_iff.mpr he
    simp only [DriverLock.holder_request]
    rcases s.driver_lock.request_cases client now with ⟨other, hne, hheld, hr⟩ | ⟨hfree, hr⟩
    · rw [hr]
      exact .busy other he hne hheld
    · rw [hr]
      simp only [Bool.true_eq_false, ↓reduceIte]
      cases hs : scale_command float linear_axis angular_axis speed c.max_linear c.max_angular
        c.turbo_speed with
      | error e => exact .overflow e he hfree
      | ok r => exact .ok r.1 r.2 he hfree hs

end Drive

section Command
variable {K Client V : Type} [Field K] [LinearOrder K] [DecidableEq Client]
variable (c : Parameters K) (float : V → FloatResult K)

/-- The call neither replaces a command of `client`'s nor is one after which it must not
drive. An engaged `/e_stop` message counts unless the filter takes it for an echo. -/
def Undisturbed (client : Client) (s : RobotBridge K Client) (e : Event K Client V) : Prop :=
  match e.op with
  | .drive other linear angular speed =>
    (s.drive c float e.now other linear angular speed).1 ≠ .ok .ok
  | .release other _ => other ≠ client
  | .set_estop engaged => engaged = false
  | .on_estop engaged => engaged = true → (s.estop_echo.is_echo engaged e.now).1 = true
  | _ => True

/-- What a call does to the stored command and to the lock of the client it came from. -/
inductive CommandStep (e : Event K Client V) (s s' : RobotBridge K Client) : Prop
  | dropped (hc : s'.command = none)
      (ht : s'.driver_lock.timeout = s.driver_lock.timeout)
  | stored (client : Client) (linear_axis angular_axis speed : V) (linear angular : K)
      (hop : e.op = .drive client linear_axis angular_axis speed)
      (hok : (s.drive c float e.now client linear_axis angular_axis speed).1 = .ok .ok)
      (hscale : scale_command float linear_axis angular_axis speed c.max_linear c.max_angular
        c.turbo_speed = .ok (linear, angular))
      (hs : s.estop = false) (hs' : s'.estop = false)
      (hfree : s.driver_lock.FreeFor client e.now)
      (hc : s'.command = some ⟨linear, angular, e.now⟩)
      (hl : s'.driver_lock = s.driver_lock.taken client e.now)
  | kept (hc : s'.command = s.command) (hs : s'.estop = true → s.estop = true)
      (ht : s'.driver_lock.timeout = s.driver_lock.timeout)
      (hl : ∀ client, s.driver_lock.HeldBy client e.now →
        (s'.driver_lock = s.driver_lock ∨ s'.driver_lock = s.driver_lock.taken client e.now) ∧
        Undisturbed c float client s e)

variable {c float}

/-- A call that leaves the command, the lock and the E-stop alone. -/
theorem CommandStep.same {e : Event K Client V} {s s' : RobotBridge K Client}
    (hc : s'.command = s.command) (hs : s'.estop = s.estop) (hl : s'.driver_lock = s.driver_lock)
    (hu : ∀ client, Undisturbed c float client s e) : CommandStep c float e s s' :=
  .kept hc (fun h => hs.symm.trans h) (by rw [hl]) fun client _ => ⟨.inl hl, hu client⟩

variable (c float)

omit [LinearOrder K] [DecidableEq Client] in
theorem publish_zero_spec (s : RobotBridge K Client) :
    s.publish_zero.command = s.command ∧ s.publish_zero.estop = s.estop ∧
      s.publish_zero.driver_lock = s.driver_lock := by
  unfold RobotBridge.publish_zero
  split <;> exact ⟨rfl, rfl, rfl⟩

/-- Only asking who holds the lock. -/
theorem CommandStep.of_holder {e : Event K Client V} {s s' : RobotBridge K Client}
    (h : s' = { s with driver_lock := (s.driver_lock.holder e.now).2 })
    (hu : ∀ client, s.driver_lock.HeldBy client e.now → Undisturbed c float client s e) :
    CommandStep c float e s s' := by
  subst h
  refine .kept rfl id DriverLock.holder_timeout fun client hheld => ⟨.inl ?_, hu client hheld⟩
  change (s.driver_lock.holder e.now).2 = s.driver_lock
  rw [DriverLock.holder_held hheld]

theorem drive_command (now : K) (client : Client) (linear angular speed : V)
    (s : RobotBridge K Client) :
    CommandStep c float ⟨now, .drive client linear angular speed⟩ s
      (s.drive c float now client linear angular speed).2 := by
  have hcases := drive_cases c float now client linear angular speed s
  generalize hr : s.drive c float now client linear angular speed = r at hcases
  have hu : ∀ who, r.1 ≠ .ok .ok →
      Undisturbed c float who s ⟨now, .drive client linear angular speed⟩ := by
    intro who hne
    change (s.drive c float now client linear angular speed).1 ≠ .ok .ok
    rw [hr]
    exact hne
  cases hcases with
  | estop h => exact .same rfl rfl rfl fun who => hu who (fun h => by cases h)
  | busy other h hne hheld => exact .same rfl rfl rfl fun who => hu who (fun h => by cases h)
  | overflow e h hfree =>
    refine .kept rfl id rfl fun who hheld => ⟨.inr ?_, hu who (fun h => by cases h)⟩
    rw [hfree.eq_of_held hheld]
  | ok v w h hfree hscale =>
    exact .stored client linear angular speed v w rfl (by rw [hr]) hscale h h hfree rfl rfl

theorem aim_gizmo_command (now : K) (client : Client) (yaw pitch : V)
    (s : RobotBridge K Client) :
    CommandStep c float ⟨now, .aim_gizmo client yaw pitch⟩ s
      (s.aim_gizmo c float now client yaw pitch).2 := by
  have hsame : CommandStep c float ⟨now, .aim_gizmo client yaw pitch⟩ s s :=
    .same rfl rfl rfl fun _ => trivial
  unfold RobotBridge.aim_gizmo
  by_cases hm : s.mode ≠ .DRIVE
  · rw [if_pos hm]
    exact hsame
  · rw [if_neg hm]
    by_cases he : s.estop = true
    · rw [if_pos he]
      exact hsame
    · rw [if_neg he]
      rcases s.driver_lock.request_cases client now with ⟨other, hne, hheld, hr⟩ | ⟨hfree, hr⟩
      · simp only [hr, ↓reduceIte]
        exact hsame
      · simp only [hr, Bool.true_eq_false, ↓reduceIte]
        have htaken : ∀ s' : RobotBridge K Client, s'.command = s.command →
            s'.estop = s.estop → s'.driver_lock = s.driver_lock.taken client now →
            CommandStep c float ⟨now, .aim_gizmo client yaw pitch⟩ s s' := by
          intro s' hc hs hl
          refine .kept hc (fun h => hs.symm.trans h) (by rw [hl]; rfl) fun who hheld => ?_
          exact ⟨.inr (by rw [hl, hfree.eq_of_held hheld]), trivial⟩
        cases finite_or_zero float yaw with
        | error e => exact htaken _ rfl rfl rfl
        | ok yaw =>
          cases finite_or_zero float pitch with
          | error e => exact htaken _ rfl rfl rfl
          | ok pitch => exact htaken _ rfl rfl rfl

theorem release_command (now : K) (client : Client) (disconnected : Bool)
    (s : RobotBridge K Client) :
    CommandStep c float ⟨now, .release client disconnected⟩ s
      (s.release now client disconnected) := by
  unfold RobotBridge.release
  rcases hh : s.driver_lock.holder now with ⟨who, kept⟩
  have ht : kept.timeout = s.driver_lock.timeout := by
    have h : (s.driver_lock.holder now).2.timeout = s.driver_lock.timeout :=
      DriverLock.holder_timeout
    rw [hh] at h
    exact h
  dsimp only
  by_cases hw : who ≠ some client
  · rw [if_pos hw]
    refine .of_holder c float (by rw [hh]) fun other hheld => ?_
    rw [DriverLock.holder_held hheld] at hh
    rintro rfl
    exact hw (Prod.mk.inj hh).1.symm
  · rw [if_neg hw]
    refine .dropped (publish_zero_spec _).1 ?_
    rw [(publish_zero_spec _).2.2]
    cases disconnected with
    | false => exact ht
    | true =>
      change (kept.release client).2.timeout = s.driver_lock.timeout
      rw [← ht]
      unfold DriverLock.release
      split <;> rfl

theorem set_estop_command (now : K) (engaged : Bool) (s : RobotBridge K Client) :
    CommandStep c float ⟨now, .set_estop engaged⟩ s (s.set_estop now engaged).2 := by
  cases engaged with
  | true => exact .dropped rfl rfl
  | false => exact .kept rfl (fun h => by cases h) rfl fun client _ => ⟨.inl rfl, rfl⟩

theorem on_estop_command (now : K) (engaged : Bool) (s : RobotBridge K Client)
    (hs : s.estop = true → s.command = none) :
    CommandStep c float ⟨now, .on_estop engaged⟩ s (s.on_estop now engaged) := by
  unfold RobotBridge.on_estop
  rcases he : s.estop_echo.is_echo engaged now with ⟨echo, filter⟩
  dsimp only
  cases echo with
  | true =>
    rw [if_pos rfl]
    exact .same rfl rfl rfl fun _ _ => by rw [he]
  | false =>
    rw [if_neg Bool.false_ne_true]
    cases engaged with
    | false =>
      have hu : ∀ client, Undisturbed c float client s ⟨now, .on_estop false⟩ :=
        fun _ h => by cases h
      split
      · exact .same rfl rfl rfl hu
      · exact .kept rfl (fun h => by cases h) rfl fun client _ => ⟨.inl rfl, hu client⟩
    | true =>
      split
      · rename_i heq
        exact .dropped (hs heq.symm) rfl
      · exact .dropped rfl rfl

theorem drive_timer_command (now : K) (s : RobotBridge K Client) :
    CommandStep c float ⟨now, .on_drive_timer⟩ s (s.on_drive_timer c now) := by
  unfold RobotBridge.on_drive_timer
  cases s.live_command c now with
  | none =>
    have hp := publish_zero_spec { s with command := none, guard := none }
    refine .dropped hp.1 ?_
    rw [hp.2.2]
  | some command => exact .same rfl rfl rfl fun _ => trivial

/-- Every call drops the command, stores an accepted one, or keeps it. -/
theorem perform_command [FloorRing K] (e : Event K Client V) (s : RobotBridge K Client)
    (hs : s.estop = true → s.command = none) :
    CommandStep c float e s (perform c float e s) := by
  obtain ⟨now, op⟩ := e
  cases op with
  | on_estop engaged => exact on_estop_command c float now engaged s hs
  | on_drive_timer => exact drive_timer_command c float now s
  | drive client linear angular speed =>
    exact drive_command c float now client linear angular speed s
  | release client disconnected => exact release_command c float now client disconnected s
  | set_estop engaged => exact set_estop_command c float now engaged s
  | aim_gizmo client yaw pitch => exact aim_gizmo_command c float now client yaw pitch s
  | may_control client => exact .of_holder c float rfl fun _ _ => trivial
  | snapshot =>
    simp only [perform, RobotBridge.snapshot]
    split
    · exact .same rfl rfl rfl fun _ => trivial
    · exact .of_holder c float rfl fun _ _ => trivial
  | on_battery voltage =>
    simp only [perform, RobotBridge.on_battery]
    split
    · split <;> exact .same rfl rfl rfl fun _ => trivial
    · exact .same rfl rfl rfl fun _ => trivial
  | on_image =>
    simp only [perform, RobotBridge.on_image]
    split <;> exact .same rfl rfl rfl fun _ => trivial
  | update_image_subscription =>
    simp only [perform, RobotBridge.update_image_subscription]
    split <;> split <;> exact .same rfl rfl rfl fun _ => trivial
  | on_estop_timer =>
    simp only [perform, RobotBridge.on_estop_timer]
    split <;> exact .same rfl rfl rfl fun _ => trivial
  | on_estop_startup =>
    simp only [perform, RobotBridge.on_estop_startup]
    split <;> exact .same rfl rfl rfl fun _ => trivial
  | set_mode mode =>
    simp only [perform, RobotBridge.set_mode]
    split <;> exact .same rfl rfl rfl fun _ => trivial
  | on_range side range => exact .same rfl rfl rfl fun _ => trivial
  | on_odom linear angular => exact .same rfl rfl rfl fun _ => trivial
  | on_person_status data => exact .same rfl rfl rfl fun _ => trivial
  | on_graph_timer follower detector => exact .same rfl rfl rfl fun _ => trivial
  | set_streaming streaming => exact .same rfl rfl rfl fun _ => trivial

end Command

section Messages
variable {K Client V : Type} [Field K] [LinearOrder K]
variable (c : Parameters K) (float : V → FloatResult K)

/-- What the obstacle guard leaves of a linear velocity at `now`. -/
def guarded_linear (now : K) (s : RobotBridge K Client) (linear : K) : K :=
  (guard_command linear (s.fresh_ranges c now) (RobotBridge.tick_stop_distance c linear)
    c.require_ultrasonic).1

/-- What a call publishes. -/
inductive Sends (e : Event K Client V) (s : RobotBridge K Client) : List (Message K) → Prop
  | nothing : Sends e s []
  | gizmo (yaw pitch : K) : Sends e s [.gizmo yaw pitch]
  | zero : Sends e s [.twist 0 0]
  | drive (command : Command K) (hop : e.op = .on_drive_timer)
      (hlive : s.live_command c e.now = some command) :
      Sends e s [.twist (guarded_linear c e.now s command.linear) command.angular]
  | estop (hop : e.op = .on_estop_timer ∨ e.op = .on_estop_startup) :
      Sends e s [.estop s.estop]
  | set_estop (engaged : Bool) (hop : e.op = .set_estop engaged) :
      Sends e s ((if engaged then [.twist 0 0] else []) ++ [.estop engaged])

/-- The messages published between two states of a run. -/
def sent_in (s s' : RobotBridge K Client) : List (Message K) := s'.sent.drop s.sent.length

omit [Field K] [LinearOrder K] in
theorem sent_in_append {s s' : RobotBridge K Client} {new : List (Message K)}
    (h : s'.sent = s.sent ++ new) : sent_in s s' = new := by
  rw [sent_in, h, List.drop_left]

variable {c} in
theorem sends_nothing {e : Event K Client V} {s s' : RobotBridge K Client}
    (h : s'.sent = s.sent) : ∃ new, Sends c e s new ∧ s'.sent = s.sent ++ new :=
  ⟨[], .nothing, by rw [h, List.append_nil]⟩

theorem publish_zero_sends (e : Event K Client V) {s s' : RobotBridge K Client}
    (h : s'.sent = s.sent) :
    ∃ new, Sends c e s new ∧ s'.publish_zero.sent = s.sent ++ new := by
  unfold RobotBridge.publish_zero
  split
  · exact ⟨_, .zero, by rw [← h]; rfl⟩
  · exact sends_nothing h

omit [LinearOrder K] in
theorem set_estop_sent (now : K) (engaged : Bool) (s : RobotBridge K Client) :
    (s.set_estop now engaged).2.sent =
      s.sent ++ ((if engaged then [.twist 0 0] else []) ++ [.estop engaged]) := by
  cases engaged with
  | true => exact List.append_assoc s.sent _ _
  | false => rfl

/-- The tick with a live command sends what the guard leaves of it. -/
theorem drive_timer_live {now : K} {s : RobotBridge K Client} {command : Command K}
    (h : s.live_command c now = some command) :
    (s.on_drive_timer c now).sent =
      s.sent ++ [.twist (guarded_linear c now s command.linear) command.angular] := by
  unfold RobotBridge.on_drive_timer
  rw [h]
  rfl

theorem on_estop_sent (now : K) (engaged : Bool) (s : RobotBridge K Client) :
    (s.on_estop now engaged).sent = s.sent := by
  unfold RobotBridge.on_estop
  dsimp only
  split
  · rfl
  · split
    · rfl
    · cases engaged <;> rfl

/-- A twist that is not zero comes from the drive timer. -/
theorem nonzero_twist {e : Event K Client V} {s : RobotBridge K Client}
    {new : List (Message K)} {v w : K} (h : Sends c e s new) (hmem : .twist v w ∈ new)
    (hne : v ≠ 0 ∨ w ≠ 0) :
    e.op = .on_drive_timer ∧ ∃ command, s.live_command c e.now = some command ∧
      v = guarded_linear c e.now s command.linear ∧ w = command.angular := by
  have hzero : Message.twist v w ≠ Message.twist (0 : K) 0 := by
    intro heq
    obtain ⟨rfl, rfl⟩ := Message.twist.inj heq
    exact hne.elim (fun h => h rfl) fun h => h rfl
  cases h with
  | nothing => cases hmem
  | gizmo yaw pitch => cases List.mem_singleton.mp hmem
  | zero => exact absurd (List.mem_singleton.mp hmem) hzero
  | drive command hop hlive =>
    obtain ⟨hv, hw⟩ := Message.twist.inj (List.mem_singleton.mp hmem)
    exact ⟨hop, command, hlive, hv, hw⟩
  | estop hop => cases List.mem_singleton.mp hmem
  | set_estop engaged hop =>
    rcases List.mem_append.mp hmem with hmem | hmem
    · cases engaged with
      | false => cases hmem
      | true => exact absurd (List.mem_singleton.mp hmem) hzero
    · cases List.mem_singleton.mp hmem

variable [DecidableEq Client]

theorem aim_gizmo_sends (now : K) (client : Client) (yaw pitch : V) (s : RobotBridge K Client) :
    ∃ new, Sends c (⟨now, .aim_gizmo client yaw pitch⟩ : Event K Client V) s new ∧
      (s.aim_gizmo c float now client yaw pitch).2.sent = s.sent ++ new := by
  unfold RobotBridge.aim_gizmo
  split
  · exact sends_nothing rfl
  · split
    · exact sends_nothing rfl
    · dsimp only
      split
      · exact sends_nothing rfl
      · split
        · exact sends_nothing rfl
        · split
          · exact sends_nothing rfl
          · exact ⟨_, .gizmo _ _, rfl⟩

theorem drive_sent (now : K) (client : Client) (linear angular speed : V)
    (s : RobotBridge K Client) :
    (s.drive c float now client linear angular speed).2.sent = s.sent := by
  have hcases := drive_cases c float now client linear angular speed s
  generalize s.drive c float now client linear angular speed = r at hcases
  cases hcases <;> rfl

/-- Every call publishes one of these. -/
theorem perform_sends [FloorRing K] (e : Event K Client V) (s : RobotBridge K Client) :
    ∃ new, Sends c e s new ∧ (perform c float e s).sent = s.sent ++ new := by
  obtain ⟨now, op⟩ := e
  cases op with
  | on_drive_timer =>
    cases hlive : s.live_command c now with
    | some command => exact ⟨_, .drive command rfl hlive, drive_timer_live c hlive⟩
    | none =>
      simp only [perform, RobotBridge.on_drive_timer, hlive]
      exact publish_zero_sends c _ rfl
  | release client disconnected =>
    simp only [perform, RobotBridge.release]
    split
    · exact sends_nothing rfl
    · apply publish_zero_sends
      cases disconnected <;> rfl
  | set_estop engaged => exact ⟨_, .set_estop engaged rfl, set_estop_sent now engaged s⟩
  | on_estop_timer =>
    simp only [perform, RobotBridge.on_estop_timer]
    split
    · exact ⟨_, .estop (.inl rfl), rfl⟩
    · exact sends_nothing rfl
  | on_estop_startup =>
    simp only [perform, RobotBridge.on_estop_startup]
    split
    · exact ⟨_, .estop (.inr rfl), rfl⟩
    · exact sends_nothing rfl
  | aim_gizmo client yaw pitch => exact aim_gizmo_sends c float now client yaw pitch s
  | set_mode mode =>
    simp only [perform, RobotBridge.set_mode]
    split
    · exact ⟨_, .gizmo 0 0, rfl⟩
    · exact sends_nothing rfl
  | drive client linear angular speed =>
    exact sends_nothing (drive_sent c float now client linear angular speed s)
  | on_estop engaged => exact sends_nothing (on_estop_sent now engaged s)
  | on_battery voltage =>
    simp only [perform, RobotBridge.on_battery]
    split
    · split <;> exact sends_nothing rfl
    · exact sends_nothing rfl
  | on_image =>
    simp only [perform, RobotBridge.on_image]
    split <;> exact sends_nothing rfl
  | update_image_subscription =>
    simp only [perform, RobotBridge.update_image_subscription]
    split <;> split <;> exact sends_nothing rfl
  | snapshot =>
    simp only [perform, RobotBridge.snapshot]
    split <;> exact sends_nothing rfl
  | on_range side range => exact sends_nothing rfl
  | on_odom linear angular => exact sends_nothing rfl
  | on_person_status data => exact sends_nothing rfl
  | on_graph_timer follower detector => exact sends_nothing rfl
  | may_control client => exact sends_nothing rfl
  | set_streaming streaming => exact sends_nothing rfl

end Messages

section Untouched
variable {K Client V : Type} [Field K] [LinearOrder K] [FloorRing K] [DecidableEq Client]
variable (c : Parameters K) (float : V → FloatResult K)

/-- The calls that look at the driver lock. -/
def Op.asks_lock : Op K Client V → Bool
  | .may_control _ | .drive _ _ _ _ | .release _ _ | .aim_gizmo _ _ _ | .snapshot => true
  | _ => false

/-- The calls that deal with the E-stop. -/
def Op.is_estop : Op K Client V → Bool
  | .on_estop _ | .set_estop _ | .on_estop_timer | .on_estop_startup => true
  | _ => false

/-- The readings change with a reading only, the mode with `set_mode`, the driver lock with
the calls that look at it, and the E-stop and its filter with the calls that deal with it. -/
structure Untouched (op : Op K Client V) (s s' : RobotBridge K Client) : Prop where
  ranges : (∀ side range, op ≠ .on_range side range) → s'.ranges = s.ranges
  mode : (∀ mode, op ≠ .set_mode mode) → s'.mode = s.mode
  driver_lock : op.asks_lock = false → s'.driver_lock = s.driver_lock
  estop : op.is_estop = false → s'.estop = s.estop ∧ s'.estop_echo = s.estop_echo

/-- The fields that few calls change. -/
def kept (s : RobotBridge K Client) :=
  (s.ranges, s.mode, s.estop, s.estop_echo)

omit [FloorRing K] [Field K] [LinearOrder K] [DecidableEq Client] in
theorem Untouched.same {op : Op K Client V} {s s' : RobotBridge K Client} (h : kept s' = kept s)
    (hlock : s'.driver_lock = s.driver_lock) : Untouched op s s' := by
  simp only [kept, Prod.mk.injEq] at h
  exact ⟨fun _ => h.1, fun _ => h.2.1, fun _ => hlock, fun _ => h.2.2⟩

omit [FloorRing K] [Field K] [LinearOrder K] [DecidableEq Client] in
/-- A call that looks at the lock. -/
theorem Untouched.asks {op : Op K Client V} {s s' : RobotBridge K Client}
    (hop : op.asks_lock = true) (h : kept s' = kept s) : Untouched op s s' := by
  simp only [kept, Prod.mk.injEq] at h
  refine ⟨fun _ => h.1, fun _ => h.2.1, fun hasks => ?_, fun _ => h.2.2⟩
  rw [hop] at hasks
  cases hasks

omit [FloorRing K] [Field K] [LinearOrder K] [DecidableEq Client] in
/-- A call that deals with the E-stop. -/
theorem Untouched.of_estop {op : Op K Client V} {s s' : RobotBridge K Client}
    (hop : op.is_estop = true) (hranges : s'.ranges = s.ranges) (hmode : s'.mode = s.mode)
    (hlock : s'.driver_lock = s.driver_lock) : Untouched op s s' := by
  refine ⟨fun _ => hranges, fun _ => hmode, fun _ => hlock, fun hestop => ?_⟩
  rw [hop] at hestop
  cases hestop

omit [FloorRing K] [LinearOrder K] [DecidableEq Client] in
theorem publish_zero_kept (s : RobotBridge K Client) : kept s.publish_zero = kept s := by
  unfold RobotBridge.publish_zero
  split
  · rfl
  · rfl

theorem perform_untouched (e : Event K Client V) (s : RobotBridge K Client) :
    Untouched e.op s (perform c float e s) := by
  obtain ⟨now, op⟩ := e
  cases op with
  | on_range side range =>
    exact ⟨fun h => absurd rfl (h side range), fun _ => rfl, fun _ => rfl, fun _ => ⟨rfl, rfl⟩⟩
  | set_mode mode =>
    simp only [perform, RobotBridge.set_mode]
    split
    · exact ⟨fun _ => rfl, fun h => absurd rfl (h mode), fun _ => rfl, fun _ => ⟨rfl, rfl⟩⟩
    · exact ⟨fun _ => rfl, fun h => absurd rfl (h mode), fun _ => rfl, fun _ => ⟨rfl, rfl⟩⟩
  | on_drive_timer =>
    simp only [perform, RobotBridge.on_drive_timer]
    split
    · exact .same (publish_zero_kept _) (publish_zero_spec _).2.2
    · exact .same rfl rfl
  | drive client linear angular speed =>
    have hcases := drive_cases c float now client linear angular speed s
    simp only [perform]
    generalize s.drive c float now client linear angular speed = r at hcases
    cases hcases <;> exact .asks rfl rfl
  | release client disconnected =>
    simp only [perform, RobotBridge.release]
    split
    · exact .asks rfl rfl
    · -- whether or not the lock is freed, the zero goes out last
      cases disconnected with
      | false => exact .asks rfl (publish_zero_kept _)
      | true => exact .asks rfl (publish_zero_kept _)
  | on_estop engaged =>
    simp only [perform, RobotBridge.on_estop]
    split
    · exact .of_estop rfl rfl rfl rfl
    · split
      · exact .of_estop rfl rfl rfl rfl
      · cases engaged <;> exact .of_estop rfl rfl rfl rfl
  | set_estop engaged => cases engaged <;> exact .of_estop rfl rfl rfl rfl
  | on_estop_timer =>
    simp only [perform, RobotBridge.on_estop_timer]
    split <;> exact .of_estop rfl rfl rfl rfl
  | on_estop_startup =>
    simp only [perform, RobotBridge.on_estop_startup]
    split <;> exact .of_estop rfl rfl rfl rfl
  | aim_gizmo client yaw pitch =>
    simp only [perform, RobotBridge.aim_gizmo]
    split
    · exact .asks rfl rfl
    · split
      · exact .asks rfl rfl
      · split
        · exact .asks rfl rfl
        · split
          · exact .asks rfl rfl
          · split <;> exact .asks rfl rfl
  | on_battery voltage =>
    simp only [perform, RobotBridge.on_battery]
    split
    · split <;> exact .same rfl rfl
    · exact .same rfl rfl
  | on_image =>
    simp only [perform, RobotBridge.on_image]
    split <;> exact .same rfl rfl
  | update_image_subscription =>
    simp only [perform, RobotBridge.update_image_subscription]
    split <;> split <;> exact .same rfl rfl
  | snapshot =>
    simp only [perform, RobotBridge.snapshot]
    split <;> exact .asks rfl rfl
  | on_odom linear angular => exact .same rfl rfl
  | on_person_status data => exact .same rfl rfl
  | on_graph_timer follower detector => exact .same rfl rfl
  | may_control client => exact .asks rfl rfl
  | set_streaming streaming => exact .same rfl rfl

/-- Only a `Range` message changes the stored readings. -/
theorem perform_ranges (e : Event K Client V) (s : RobotBridge K Client)
    (hop : ∀ side range, e.op ≠ .on_range side range) :
    (perform c float e s).ranges = s.ranges :=
  (perform_untouched c float e s).ranges hop

omit [FloorRing K] [LinearOrder K] [DecidableEq Client] in
theorem publish_zero_battery (s : RobotBridge K Client) : s.publish_zero.battery = s.battery := by
  unfold RobotBridge.publish_zero
  split
  · rfl
  · rfl

/-- Only a `BatteryState` message changes the stored voltage. -/
theorem perform_battery (e : Event K Client V) (s : RobotBridge K Client)
    (hop : ∀ voltage, e.op ≠ .on_battery voltage) : (perform c float e s).battery = s.battery := by
  obtain ⟨now, op⟩ := e
  cases op with
  | on_battery voltage => exact absurd rfl (hop voltage)
  | set_mode mode =>
    simp only [perform, RobotBridge.set_mode]
    split <;> rfl
  | on_drive_timer =>
    simp only [perform, RobotBridge.on_drive_timer]
    split
    · exact publish_zero_battery _
    · rfl
  | drive client linear angular speed =>
    have hcases := drive_cases c float now client linear angular speed s
    simp only [perform]
    generalize s.drive c float now client linear angular speed = r at hcases
    cases hcases <;> rfl
  | release client disconnected =>
    simp only [perform, RobotBridge.release]
    split
    · rfl
    · cases disconnected with
      | false => exact publish_zero_battery _
      | true => exact publish_zero_battery _
  | on_estop engaged =>
    simp only [perform, RobotBridge.on_estop]
    split
    · rfl
    · split
      · rfl
      · cases engaged <;> rfl
  | set_estop engaged => cases engaged <;> rfl
  | on_estop_timer =>
    simp only [perform, RobotBridge.on_estop_timer]
    split <;> rfl
  | on_estop_startup =>
    simp only [perform, RobotBridge.on_estop_startup]
    split <;> rfl
  | aim_gizmo client yaw pitch =>
    simp only [perform, RobotBridge.aim_gizmo]
    split
    · rfl
    · split
      · rfl
      · split
        · rfl
        · split
          · rfl
          · split <;> rfl
  | on_image =>
    simp only [perform, RobotBridge.on_image]
    split <;> rfl
  | update_image_subscription =>
    simp only [perform, RobotBridge.update_image_subscription]
    split <;> split <;> rfl
  | snapshot =>
    simp only [perform, RobotBridge.snapshot]
    split <;> rfl
  | on_range side range => rfl
  | on_odom linear angular => rfl
  | on_person_status data => rfl
  | on_graph_timer follower detector => rfl
  | may_control client => rfl
  | set_streaming streaming => rfl

end Untouched

end IotRobot.Web
