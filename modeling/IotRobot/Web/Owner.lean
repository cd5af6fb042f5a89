import IotRobot.Web.Switching
import IotRobot.Web.Authority

/-!
# Whose command drives the robot

The bridge stores a command without its client, but the client of a command that is not yet
`command_timeout` old holds the driver lock. What a step of the server means to the bridge is
a few calls of its methods, and only a tick with such a command publishes a twist that is not
zero.
-/

namespace IotRobot.Web

open Lib

set_option autoImplicit false

section Owned
variable {K Client V : Type} [Field K] [LinearOrder K]
variable (c : Parameters K)

/-- A command that is not yet `command_timeout` old is held by a client with `P`. -/
structure Owned (P : Client → Prop) (m : Node K Client) : Prop where
  timeout : m.bridge.driver_lock.timeout = c.driver_timeout
  estopped : m.bridge.estop = true → m.bridge.command = none
  command : ∀ command, m.bridge.command = some command →
    c.command_timeout ≤ m.clock - command.time ∨
      ∃ client, P client ∧ Holds client command m ∧ command.time ≤ m.clock

variable {c} {P Q : Client → Prop} {m : Node K Client}

theorem Owned.imp (h : Owned c P m) (hPQ : ∀ client, P client → Q client) : Owned c Q m := by
  refine ⟨h.timeout, h.estopped, fun command hcommand => ?_⟩
  rcases h.command command hcommand with hold | ⟨client, hP, hholds⟩
  · exact .inl hold
  · exact .inr ⟨client, hPQ client hP, hholds⟩

theorem Owned.pass [IsStrictOrderedRing K] (h : Owned c P m) {now : K} (hle : m.clock ≤ now) :
    Owned c P ⟨now, m.bridge⟩ := by
  refine ⟨h.timeout, h.estopped, fun command hcommand => ?_⟩
  rcases h.command command hcommand with hold | ⟨client, hP, hholds, htime⟩
  · refine .inl ?_
    change c.command_timeout ≤ now - command.time
    linarith
  · exact .inr ⟨client, hP, ⟨hholds.driver, hholds.last_command⟩, htime.trans hle⟩

/-- The client of a live command holds the lock. -/
theorem Owned.live (h : Owned c P m) {command : Command K}
    (hlive : m.bridge.live_command c m.clock = some command) :
    ∃ client, P client ∧ m.bridge.driver_lock.driver = some client := by
  unfold RobotBridge.live_command at hlive
  obtain ⟨hcommand, hyoung⟩ := Option.filter_eq_some_iff.mp hlive
  rcases h.command command hcommand with hold | ⟨client, hP, hholds, -⟩
  · simp [hold] at hyoung
  · exact ⟨client, hP, hholds.driver⟩

variable [FloorRing K] [DecidableEq Client] [IsStrictOrderedRing K] (float : V → FloatResult K)

/-- A call that leaves the command alone keeps its owner, and one that stores a command
brings the owner. -/
theorem Owned.perform (hle : c.command_timeout ≤ c.driver_timeout) (h : Owned c P m)
    (e : Event K Client V) (hclock : m.clock ≤ e.now)
    (hkeep : ∀ client, P client → Undisturbed c float client m.bridge e → Q client)
    (hdrive : ∀ client linear angular speed, e.op = .drive client linear angular speed →
      Q client) :
    Owned c Q ⟨e.now, perform c float e m.bridge⟩ := by
  cases perform_command c float e m.bridge h.estopped with
  | dropped hc ht =>
    refine ⟨ht.trans h.timeout, fun _ => hc, fun command hcommand => ?_⟩
    simp [hc] at hcommand
  | stored client linear_axis angular_axis speed linear angular hop hok hscale hs hs' hfree hc hl =>
    refine ⟨?_, fun hestop => by simp [hs'] at hestop,
      fun command hcommand => .inr ⟨client, ?_, ⟨?_, ?_⟩, ?_⟩⟩
    · rw [hl]
      exact h.timeout
    · exact hdrive client _ _ _ hop
    · rw [hl]
      rfl
    all_goals
      rw [hc] at hcommand
      obtain rfl := Option.some.inj hcommand
    · exact ⟨e.now, by rw [hl]; rfl, le_refl _⟩
    · exact le_refl _
  | kept hc hs ht hl =>
    refine ⟨ht.trans h.timeout, fun hestop => hc.trans (h.estopped (hs hestop)),
      fun command hcommand => ?_⟩
    rw [hc] at hcommand
    rcases h.command command hcommand with hold | ⟨client, hP, hholds, htime⟩
    · left
      change c.command_timeout ≤ e.now - command.time
      linarith
    · by_cases hheld : m.bridge.driver_lock.HeldBy client e.now
      · obtain ⟨hlock, hundisturbed⟩ := hl client hheld
        refine .inr ⟨client, hkeep client hP hundisturbed, ?_, htime.trans hclock⟩
        rcases hlock with hlock | hlock
        · exact ⟨by rw [hlock]; exact hholds.driver, by rw [hlock]; exact hholds.last_command⟩
        · -- the client's own request renews the lock
          exact ⟨by rw [hlock]; rfl, e.now, by rw [hlock]; rfl, htime.trans hclock⟩
      · left
        exact hle.trans (idle_of_expired c h.timeout hholds hheld)

end Owned

section Calls
variable {K Client V : Type} [Field K] [LinearOrder K] [DecidableEq Client]

/-- What a message asks of the bridge. A request for a mode only starts a task. -/
def ClientMessage.op (client : Client) : ClientMessage V → Option (Op K Client V)
  | .drive linear angular speed => some (.drive client linear angular speed)
  | .release => some (.release client false)
  | .estop engaged => some (.set_estop engaged)
  | .gizmo yaw pitch => some (.aim_gizmo client yaw pitch)
  | .mode _ => none

/-- The calls of the bridge that a step can make: those of a task are its check and the
switch of the mode. -/
def Step.makes : Step K Client V → Op K Client V → Prop
  | .message client received, op => received.op client = some op
  | .disconnect client, op => op = .release client true
  | .call made, op => op = made
  | _, .set_mode _ => True
  | _, .may_control _ => True
  | _, .snapshot => True
  | _, _ => False

variable [FloorRing K] (c : Parameters K) (l : LaunchParameters) (float : V → FloatResult K)

/-- A call of the bridge at `now` that has `P`. -/
def call_at (now : K) (P : Op K Client V → Prop) (s : RobotBridge K Client) (op : Op K Client V)
    (s' : RobotBridge K Client) : Prop :=
  P op ∧ s' = perform c float ⟨now, op⟩ s

namespace WebServer
variable {s s' : WebServer K Client} {now : K}

omit [LinearOrder K] [DecidableEq Client] [FloorRing K] in
theorem assign_mode_bridge (start : Start) (task : Switch Client) (s : WebServer K Client) :
    (s.assign_mode c l now start task).bridge = s.bridge.set_mode c task.mode := by
  unfold assign_mode
  dsimp only
  split
  · rfl
  · cases start <;> rfl

omit [LinearOrder K] [DecidableEq Client] [FloorRing K] [Field K] in
theorem kill_launch_bridge (task : Switch Client) (follow : FollowProcess) (s : WebServer K Client) :
    (s.kill_launch task follow).bridge = s.bridge := by
  have hkill : (s.kill follow).bridge = s.bridge := by
    unfold kill
    split <;> rfl
  unfold kill_launch
  dsimp only
  split <;> exact hkill

omit [LinearOrder K] [DecidableEq Client] [FloorRing K] [Field K] in
theorem follow_status_bridge (follower_ready detector_ready : Bool) (s : WebServer K Client) :
    (s.follow_status follower_ready detector_ready).bridge = s.bridge := by
  unfold follow_status
  repeat' split
  all_goals rfl

omit [LinearOrder K] [DecidableEq Client] [FloorRing K] in
/-- A task that has `mode_lock` switches the mode of the bridge or leaves the bridge alone. -/
theorem switch_mode_bridge (start : Start) (task : Switch Client) (s : WebServer K Client) :
    (s.switch_mode c l now start task).bridge = s.bridge ∨
      (s.switch_mode c l now start task).bridge = s.bridge.set_mode c task.mode := by
  unfold switch_mode
  split
  · exact .inl rfl
  split
  · exact .inr (assign_mode_bridge c l start task s)
  dsimp only
  split
  · exact .inr (assign_mode_bridge c l start task _)
  split
  · exact .inl rfl
  · exact .inl (kill_launch_bridge task _ _)

/-- A switch of the mode, as a run of calls. -/
theorem switched {P : Op K Client V → Prop} (hset : ∀ mode, P (.set_mode mode))
    {s s' : RobotBridge K Client} {mode : Mode} (h : s' = s ∨ s' = s.set_mode c mode) :
    ∃ ops, Run (call_at c float now P) s ops s' := by
  rcases h with rfl | rfl
  · exact ⟨[], .nil⟩
  · exact ⟨[.set_mode mode], .single ⟨hset mode, rfl⟩⟩

theorem handle_calls (now : K) (client : Client) (message : ClientMessage V) (s : WebServer K Client) :
    (s.handle c float now client message).clock = s.clock ∧
      (s.handle c float now client message).bridge =
        match message.op client with
        | some op => perform c float ⟨now, op⟩ s.bridge
        | none => s.bridge := by
  cases message with
  | gizmo yaw pitch =>
    unfold handle
    dsimp only
    split
    · exact ⟨rfl, rfl⟩
    · exact ⟨rfl, rfl⟩
  | drive linear angular speed => exact ⟨rfl, rfl⟩
  | release => exact ⟨rfl, rfl⟩
  | estop engaged => exact ⟨rfl, rfl⟩
  | mode mode => exact ⟨rfl, rfl⟩

theorem begin_task_calls {P : Op K Client V → Prop} (hset : ∀ mode, P (.set_mode mode))
    (hcheck : ∀ client, P (.may_control client)) (start : Start) (request : Request Client)
    (s : WebServer K Client) :
    (∃ ops, Run (call_at c float now P) s.bridge ops (s.begin_task c l now start request).bridge) ∧
      (s.begin_task c l now start request).clock = s.clock := by
  unfold begin_task
  cases request.mode with
  | none => exact ⟨⟨[], .nil⟩, rfl⟩
  | some mode =>
    have hchecked : Run (call_at c float now P) s.bridge [.may_control request.client]
        (s.bridge.may_control now request.client).2 := .single ⟨hcheck request.client, rfl⟩
    dsimp only
    split
    · exact ⟨⟨_, hchecked⟩, rfl⟩
    · split
      · obtain ⟨ops, hops⟩ := switched c float hset
          (switch_mode_bridge c l start ⟨request.client, mode, s.log.length⟩
            { s with bridge := (s.bridge.may_control now request.client).2 })
        exact ⟨⟨_, hchecked.append hops⟩, (switch_mode_lock c l now start _).clock⟩
      · exact ⟨⟨_, hchecked⟩, rfl⟩

theorem resume_calls {P : Op K Client V → Prop} (hset : ∀ mode, P (.set_mode mode)) {start : Start}
    {reader : ReaderEnd} (h : s.resume c l now start reader = some s') :
    ∃ ops, Run (call_at c float now P) s.bridge ops s'.bridge := by
  suffices h : s'.bridge = s.bridge ∨
      s'.bridge = s.bridge.set_mode c ((s.mode_lock.map fun waiting => waiting.1.mode).getD .DRIVE) from
    switched c float hset h
  unfold resume at h
  split at h
  · cases h
    exact .inl (kill_launch_bridge _ _ _)
  · split at h
    · cases h
    · cases h
      exact .inl rfl
  · rename_i hlock
    cases reader with
    | ended =>
      cases h
      rw [hlock]
      exact .inr (assign_mode_bridge c l start _ _)
    | raised =>
      cases h
      exact .inl rfl
  · cases h
    exact .inl rfl
  · cases h

/-- What a step does to the bridge is a few calls at the time that it was given. -/
theorem taken_calls {step : Step K Client V} (h : s.taken c l float now step = some s') :
    (∃ ops, Run (call_at c float now step.makes) s.bridge ops s'.bridge) ∧ s'.clock = s.clock := by
  cases step with
  | message client message =>
    cases h
    obtain ⟨hclock, hbridge⟩ := handle_calls c float now client message s
    refine ⟨?_, hclock⟩
    rw [hbridge]
    cases hop : message.op (K := K) client with
    | none => exact ⟨[], .nil⟩
    | some op => exact ⟨[op], .single ⟨hop, rfl⟩⟩
  | disconnect client =>
    cases h
    exact ⟨⟨[.release client true], .single ⟨rfl, rfl⟩⟩, rfl⟩
  | call op =>
    cases hsets : op.sets_mode with
    | true => simp [taken, hsets] at h
    | false =>
      simp only [taken, hsets, Bool.false_eq_true, if_false] at h
      cases h
      exact ⟨⟨[op], .single ⟨rfl, rfl⟩⟩, rfl⟩
  | telemetry =>
    cases h
    unfold telemetry
    dsimp only
    split
    · exact ⟨⟨[.snapshot], .single ⟨trivial, rfl⟩⟩, rfl⟩
    · exact ⟨⟨[.snapshot], .single ⟨trivial, follow_status_bridge _ _ _⟩⟩,
        (follow_status_lock _ _).clock⟩
  | begin_task i start =>
    obtain ⟨request, -, rfl⟩ := Option.map_eq_some_iff.mp h
    exact begin_task_calls c l float (P := Step.makes (.begin_task i start)) (fun _ => trivial)
      (fun _ => trivial) start request { s with spawned := s.spawned.eraseIdx i }
  | acquire start =>
    unfold taken at h
    dsimp only at h
    split at h
    · cases h
      exact ⟨switched c float (fun _ => trivial) (switch_mode_bridge c l start _ _),
        (switch_mode_lock c l now start _).clock⟩
    · cases h
  | resume start reader =>
    exact ⟨resume_calls c l float (P := Step.makes (.resume start reader)) (fun _ => trivial) h,
      (resume_lock c l now h).clock⟩
  | process i change =>
    obtain ⟨launch, -, h⟩ := Option.bind_eq_some_iff.mp h
    obtain ⟨launch', -, rfl⟩ := Option.map_eq_some_iff.mp h
    exact ⟨⟨[], .nil⟩, rfl⟩
  | line text =>
    unfold taken at h
    dsimp only at h
    split at h
    · cases h
    · split at h
      · cases h
      · cases h
        exact ⟨⟨[], .nil⟩, rfl⟩

/-- Without a tick only zero twists are published. -/
theorem calls_send {P : Op K Client V → Prop} {b b' : RobotBridge K Client} {ops : List (Op K Client V)}
    (hr : Run (call_at c float now P) b ops b') (hquiet : ¬ P .on_drive_timer) :
    ∃ new, b'.sent = b.sent ++ new ∧ ∀ v w, .twist v w ∈ new → ¬ (v ≠ 0 ∨ w ≠ 0) := by
  refine hr.invariant
    (fun b' => ∃ new, b'.sent = b.sent ++ new ∧ ∀ v w, .twist v w ∈ new → ¬ (v ≠ 0 ∨ w ≠ 0))
    ⟨[], by simp⟩ ?_
  intro b' b'' op hsent hcall
  obtain ⟨new, hnew, hzero⟩ := hsent
  obtain ⟨hop, rfl⟩ := hcall
  obtain ⟨more, hsends, hmore⟩ := perform_sends c float ⟨now, op⟩ b'
  refine ⟨new ++ more, by rw [hmore, hnew, List.append_assoc], fun v w hmem hne => ?_⟩
  rcases List.mem_append.mp hmem with hmem | hmem
  · exact hzero v w hmem hne
  · obtain rfl : op = .on_drive_timer := (nonzero_twist c hsends hmem hne).1
    exact hquiet hop

omit [Field K] [LinearOrder K] [DecidableEq Client] [FloorRing K] in
theorem makes_tick {step : Step K Client V} (h : step.makes .on_drive_timer) :
    step = .call .on_drive_timer := by
  cases step with
  | call made =>
    obtain rfl := h
    rfl
  | message client message => cases message <;> cases h
  | disconnect client => cases h
  | telemetry | begin_task | acquire | resume | process | line => exact h.elim

/-- A step that publishes a twist other than zero is a tick with a live command. -/
theorem next_twist {e : ServerEvent K Client V} (hn : next c l float s e s') {v w : K}
    (hmem : .twist v w ∈ sent_in s.bridge s'.bridge) (hne : v ≠ 0 ∨ w ≠ 0) :
    ∃ command, s.bridge.live_command c e.now = some command := by
  by_cases htick : e.step = .call .on_drive_timer
  · have hs' : s'.bridge = perform c float ⟨e.now, .on_drive_timer⟩ s.bridge := by
      have h := hn.2
      rw [htick] at h
      cases h
      rfl
    obtain ⟨new, hsends, hnew⟩ :=
      perform_sends c float (⟨e.now, .on_drive_timer⟩ : Event K Client V) s.bridge
    rw [hs', sent_in_append hnew] at hmem
    obtain ⟨command, hlive, -⟩ := (nonzero_twist c hsends hmem hne).2
    exact ⟨command, hlive⟩
  · obtain ⟨⟨ops, hr⟩, -⟩ := taken_calls c l float hn.2
    obtain ⟨new, hnew, hzero⟩ := calls_send c float hr fun h => htick (makes_tick h)
    rw [sent_in_append hnew] at hmem
    exact absurd hne (hzero v w hmem)

end WebServer

end Calls

end IotRobot.Web
