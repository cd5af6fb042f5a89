import IotRobot.Web.Modes

/-!
# Mode switches against the driver lock

`change_mode` asks whether the client may control the robot before it waits for
`mode_lock`, and not again once it has it. While it waits another client may start to
drive. So a task acts while nobody else drives exactly when no request that was granted to
another client since the check is still in force.
-/

namespace IotRobot.Web

open Lib

set_option autoImplicit false

section History
variable {K Client : Type} [Field K] [LinearOrder K]

/-- A grant still in force is among the first events of the log or among the others. -/
theorem Holding.split {log : List (LockEvent K Client)} {timeout t : K} {client : Client}
    (h : Holding log timeout t client) (k : Nat) :
    Holding (log.take k) timeout t client ∨ Holding (log.drop k) timeout t client := by
  obtain ⟨before, time, after, rfl, hyoung, hreleased⟩ := h
  by_cases hk : before.length < k
  · refine .inl ⟨before, time, after.take (k - before.length - 1), ?_, hyoung,
      fun hm => hreleased (List.mem_of_mem_take hm)⟩
    obtain ⟨j, rfl⟩ : ∃ j, k = before.length + (j + 1) := ⟨k - before.length - 1, by omega⟩
    rw [List.take_append, List.take_of_length_le (Nat.le_add_right _ _), Nat.add_sub_cancel_left,
      Nat.add_sub_cancel]
    rfl
  · refine .inr ⟨before.drop k, time, after, ?_, hyoung, hreleased⟩
    rw [List.drop_append_of_le_length (Nat.le_of_not_lt hk)]

/-- Events before a log take nothing from it. -/
theorem Holding.append {log : List (LockEvent K Client)} {timeout t : K} {client : Client}
    (h : Holding log timeout t client) (first : List (LockEvent K Client)) :
    Holding (first ++ log) timeout t client := by
  obtain ⟨before, time, after, rfl, hyoung, hreleased⟩ := h
  exact ⟨first ++ before, time, after, (List.append_assoc _ _ _).symm, hyoung, hreleased⟩

end History

section Calls
variable {K Client V : Type} [Field K] [LinearOrder K] [DecidableEq Client]
variable (c : Parameters K) (float : V → FloatResult K) (now : K)

/-- `drive` asks the lock unless the E-stop is engaged. -/
theorem drive_lock (client : Client) (linear angular speed : V) (s : RobotBridge K Client) :
    (s.drive c float now client linear angular speed).2.driver_lock =
      if s.estop then s.driver_lock else (s.driver_lock.request client now).2 := by
  unfold RobotBridge.drive
  cases s.estop with
  | true => rfl
  | false =>
    simp only [DriverLock.holder_request, Bool.false_eq_true, if_false]
    split
    · rfl
    · split
      · rfl
      · rfl

theorem aim_gizmo_lock (client : Client) (yaw pitch : V) (s : RobotBridge K Client) :
    (s.aim_gizmo c float now client yaw pitch).2.driver_lock =
      if s.mode = .DRIVE ∧ s.estop = false then (s.driver_lock.request client now).2
      else s.driver_lock := by
  unfold RobotBridge.aim_gizmo
  by_cases hmode : s.mode = .DRIVE
  · rw [if_neg (not_not.mpr hmode)]
    cases hestop : s.estop with
    | true => rw [if_pos rfl, if_neg (by simp)]
    | false =>
      rw [if_neg (by decide), if_pos ⟨hmode, rfl⟩]
      dsimp only
      split
      · rfl
      · split
        · rfl
        · split
          · rfl
          · rfl
  · rw [if_pos hmode, if_neg (fun h => hmode h.1)]

theorem release_lock (client : Client) (disconnected : Bool) (s : RobotBridge K Client) :
    (s.release now client disconnected).driver_lock =
      if disconnected ∧ (s.driver_lock.holder now).1 = some client then
        ((s.driver_lock.holder now).2.release client).2
      else (s.driver_lock.holder now).2 := by
  have hzero : ∀ t : RobotBridge K Client, t.publish_zero.driver_lock = t.driver_lock :=
    fun t => (publish_zero_spec t).2.2
  unfold RobotBridge.release
  rcases s.driver_lock.holder now with ⟨holder, kept⟩
  dsimp only
  by_cases hholder : holder = some client
  · rw [if_neg (not_not.mpr hholder), hzero]
    cases disconnected with
    | true => exact (if_pos ⟨rfl, hholder⟩).symm
    | false => exact (if_neg fun h => Bool.false_ne_true h.1).symm
  · rw [if_pos hholder, if_neg (fun h => hholder h.2)]

variable [IsStrictOrderedRing K] [FloorRing K]

/-- The lock agrees with the log after every call. -/
theorem perform_lock {timeout : K} {log : List (LockEvent K Client)} (op : Op K Client V)
    (s : RobotBridge K Client) (h : LockInv timeout ⟨now, s.driver_lock, log⟩) :
    LockInv timeout ⟨now, (perform c float ⟨now, op⟩ s).driver_lock,
      log ++ WebServer.lock_events ⟨now, op⟩ s⟩ := by
  have hquiet : op.asks_lock = false → WebServer.lock_events ⟨now, op⟩ s = [] →
      LockInv timeout ⟨now, (perform c float ⟨now, op⟩ s).driver_lock,
        log ++ WebServer.lock_events ⟨now, op⟩ s⟩ := by
    intro hasks hnone
    rw [(perform_untouched c float ⟨now, op⟩ s).driver_lock hasks, hnone, List.append_nil]
    exact h
  have hlooked : LockInv timeout ⟨now, (s.driver_lock.holder now).2, log⟩ :=
    h.holder ⟨le_refl now, rfl⟩
  have hasked : ∀ client, LockInv timeout ⟨now, (s.driver_lock.request client now).2,
      log ++ if (s.driver_lock.request client now).1 then [.granted client now] else []⟩ := by
    intro client
    have hrequest : LockInv timeout ⟨now, (s.driver_lock.request client now).2,
        if (s.driver_lock.request client now).1 then log ++ [.granted client now] else log⟩ :=
      h.request ⟨le_refl now, rfl⟩
    cases hgranted : (s.driver_lock.request client now).1 with
    | true =>
      rw [hgranted] at hrequest
      exact hrequest
    | false =>
      rw [hgranted] at hrequest
      exact (List.append_nil log).symm ▸ hrequest
  cases op with
  | drive client linear angular speed =>
    show LockInv timeout ⟨now, (s.drive c float now client linear angular speed).2.driver_lock, _⟩
    rw [drive_lock]
    cases hestop : s.estop with
    | true => simpa [WebServer.lock_events, hestop] using h
    | false => simpa [WebServer.lock_events, hestop] using hasked client
  | aim_gizmo client yaw pitch =>
    show LockInv timeout ⟨now, (s.aim_gizmo c float now client yaw pitch).2.driver_lock, _⟩
    rw [aim_gizmo_lock]
    by_cases hfree : s.mode = .DRIVE ∧ s.estop = false
    · simpa [WebServer.lock_events, hfree] using hasked client
    · have hnone : WebServer.lock_events ⟨now, .aim_gizmo client yaw pitch⟩ s = [] :=
        if_neg fun h => hfree ⟨h.1, h.2.1⟩
      rw [if_neg hfree, hnone, List.append_nil]
      exact h
  | release client disconnected =>
    show LockInv timeout ⟨now, (s.release now client disconnected).driver_lock, _⟩
    rw [release_lock]
    unfold WebServer.lock_events
    dsimp only
    split
    · exact hlooked.release rfl
    · rw [List.append_nil]
      exact hlooked
  | may_control client => exact (List.append_nil log).symm ▸ hlooked
  | snapshot =>
    show LockInv timeout ⟨now, (s.snapshot c now).2.driver_lock, log ++ []⟩
    rw [List.append_nil]
    unfold RobotBridge.snapshot
    dsimp only
    split
    · exact h
    · exact hlooked
  | _ => exact hquiet rfl rfl

end Calls

namespace WebServer

section Frame
variable {K Client : Type} [Field K] (c : Parameters K) (l : LaunchParameters) (now : K)
variable {s s' s'' : WebServer K Client}

/-- The driver lock, its log, the clock and the waiting tasks are the same. -/
structure SameLock (s s' : WebServer K Client) : Prop where
  clock : s'.clock = s.clock
  driver_lock : s'.bridge.driver_lock = s.bridge.driver_lock
  log : s'.log = s.log
  waiting : s'.waiting = s.waiting

omit [Field K] in
theorem SameLock.trans (h : SameLock s s') (h' : SameLock s' s'') : SameLock s s'' :=
  ⟨h'.clock.trans h.clock, h'.driver_lock.trans h.driver_lock, h'.log.trans h.log,
    h'.waiting.trans h.waiting⟩

theorem assign_mode_lock (start : Start) (task : Switch Client) :
    SameLock s (s.assign_mode c l now start task) := by
  have hbridge : (s.bridge.set_mode c task.mode).driver_lock = s.bridge.driver_lock := by
    unfold RobotBridge.set_mode
    dsimp only
    split
    · rfl
    · rfl
  unfold assign_mode
  dsimp only
  split
  · exact ⟨rfl, hbridge, rfl, rfl⟩
  · cases start with
    | forked => exact ⟨rfl, hbridge, rfl, rfl⟩
    | os_error error => exact ⟨rfl, hbridge, rfl, rfl⟩
    | raised => exact ⟨rfl, hbridge, rfl, rfl⟩

omit [Field K] in
theorem kill_launch_lock (task : Switch Client) (follow : FollowProcess) :
    SameLock s (s.kill_launch task follow) := by
  have hkill : SameLock s (s.kill follow) := by
    unfold kill
    split
    · exact ⟨rfl, rfl, rfl, rfl⟩
    · exact ⟨rfl, rfl, rfl, rfl⟩
  unfold kill_launch
  dsimp only
  split
  · exact ⟨hkill.clock, hkill.driver_lock, hkill.log, hkill.waiting⟩
  · exact ⟨hkill.clock, hkill.driver_lock, hkill.log, hkill.waiting⟩

theorem switch_mode_lock (start : Start) (task : Switch Client) :
    SameLock s (s.switch_mode c l now start task) := by
  unfold switch_mode
  split
  · exact ⟨rfl, rfl, rfl, rfl⟩
  split
  · exact assign_mode_lock c l now start task
  dsimp only
  split
  · have hstopped : SameLock s { s with mode_status := .stopping, follow := none } :=
      ⟨rfl, rfl, rfl, rfl⟩
    exact hstopped.trans (assign_mode_lock c l now start task)
  split
  · exact ⟨rfl, rfl, rfl, rfl⟩
  · have hstopping : SameLock s { s with mode_status := .stopping } := ⟨rfl, rfl, rfl, rfl⟩
    exact hstopping.trans (kill_launch_lock task _)

theorem resume_lock {start : Start} {reader : ReaderEnd}
    (h : s.resume c l now start reader = some s') : SameLock s s' := by
  unfold resume at h
  split at h
  · cases h
    exact kill_launch_lock _ _
  · split at h
    · cases h
    · cases h
      exact ⟨rfl, rfl, rfl, rfl⟩
  · cases reader with
    | ended =>
      cases h
      have hstopped : SameLock s { s with follow := none } := ⟨rfl, rfl, rfl, rfl⟩
      exact hstopped.trans (assign_mode_lock c l now start _)
    | raised =>
      cases h
      exact ⟨rfl, rfl, rfl, rfl⟩
  · cases h
    exact ⟨rfl, rfl, rfl, rfl⟩
  · cases h

omit [Field K] in
theorem follow_status_mode (follower_ready detector_ready : Bool) :
    (s.follow_status follower_ready detector_ready).mode = s.mode ∧
      (s.follow_status follower_ready detector_ready).mode_lock = s.mode_lock := by
  unfold follow_status
  split
  · exact ⟨rfl, rfl⟩
  split
  · exact ⟨rfl, rfl⟩
  split
  · exact ⟨rfl, rfl⟩
  split
  · exact ⟨rfl, rfl⟩
  split
  · exact ⟨rfl, rfl⟩
  · exact ⟨rfl, rfl⟩

omit [Field K] in
theorem follow_status_lock (follower_ready detector_ready : Bool) :
    SameLock s (s.follow_status follower_ready detector_ready) := by
  unfold follow_status
  split
  · exact ⟨rfl, rfl, rfl, rfl⟩
  split
  · exact ⟨rfl, rfl, rfl, rfl⟩
  split
  · exact ⟨rfl, rfl, rfl, rfl⟩
  split
  · exact ⟨rfl, rfl, rfl, rfl⟩
  split
  · exact ⟨rfl, rfl, rfl, rfl⟩
  · exact ⟨rfl, rfl, rfl, rfl⟩

end Frame

section Checked
variable {K Client V : Type} [Field K] [LinearOrder K] [IsStrictOrderedRing K] [FloorRing K]
  [DecidableEq Client]
variable (c : Parameters K) (l : LaunchParameters) (float : V → FloatResult K)
variable {s s' : WebServer K Client}

/-- At its check no other client held the lock. -/
def Checked (s : WebServer K Client) (task : Switch Client) : Prop :=
  task.checked ≤ s.log.length ∧ ∀ other, other ≠ task.client →
    ¬ Holding (s.log.take task.checked) c.driver_timeout s.clock other

structure SwitchInv (s : WebServer K Client) : Prop where
  lock : LockInv c.driver_timeout ⟨s.clock, s.bridge.driver_lock, s.log⟩
  checked : ∀ task ∈ s.waiting, s.Checked c task

variable {c}

omit [IsStrictOrderedRing K] [FloorRing K] [DecidableEq Client] in
theorem SwitchInv.same (h : s.SwitchInv c) (hs : SameLock s s') : s'.SwitchInv c := by
  refine ⟨?_, fun task hm => ?_⟩
  · rw [hs.clock, hs.driver_lock, hs.log]
    exact h.lock
  · rw [Checked, hs.clock, hs.log]
    exact h.checked task (hs.waiting ▸ hm)

omit [FloorRing K] [DecidableEq Client] in
/-- What was in force before is not in force again later. -/
theorem SwitchInv.pass (h : s.SwitchInv c) {now : K} (hle : s.clock ≤ now) :
    SwitchInv c { s with clock := now } := by
  refine ⟨h.lock.pass hle, fun task hm => ?_⟩
  obtain ⟨hlength, hnone⟩ := h.checked task hm
  exact ⟨hlength, fun other hne hholding => hnone other hne (hholding.earlier hle)⟩

theorem SwitchInv.call (h : s.SwitchInv c) (op : Op K Client V) :
    (s.call c float s.clock op).SwitchInv c := by
  refine ⟨perform_lock c float s.clock op s.bridge h.lock, fun task hm => ?_⟩
  obtain ⟨hlength, hnone⟩ := h.checked task hm
  refine ⟨?_, fun other hne hholding => hnone other hne ?_⟩
  · show task.checked ≤ (s.log ++ _).length
    rw [List.length_append]
    exact Nat.le_add_right_of_le hlength
  · have htake : (s.log ++ lock_events ⟨s.clock, op⟩ s.bridge).take task.checked =
        s.log.take task.checked := List.take_append_of_le_length hlength
    rw [← htake]
    exact hholding

omit [IsStrictOrderedRing K] [FloorRing K] in
/-- Once a check has been passed, no other client held the lock by the log. -/
theorem SwitchInv.allowed (h : s.SwitchInv c) {client : Client}
    (hallowed : (s.bridge.may_control s.clock client).1 = true) {other : Client}
    (hne : other ≠ client) : ¬ Holding s.log c.driver_timeout s.clock other := by
  intro hholding
  have hheld := h.lock.held s.clock other (le_refl _) hholding
  have hholder : (s.bridge.driver_lock.holder s.clock).1 = some other := by
    rw [DriverLock.holder_held hheld]
  have hanswer : (s.bridge.driver_lock.holder s.clock).1 = none ∨
      (s.bridge.driver_lock.holder s.clock).1 = some client := of_decide_eq_true hallowed
  rw [hholder] at hanswer
  rcases hanswer with hnone | hsome
  · cases hnone
  · exact hne (Option.some.inj hsome)

omit [FloorRing K] in
theorem begin_task_switch (start : Start) (request : Request Client) (h : s.SwitchInv c) :
    (s.begin_task c l s.clock start request).SwitchInv c := by
  have hasked : SwitchInv c { s with bridge := (s.bridge.may_control s.clock request.client).2 } :=
    ⟨h.lock.holder ⟨le_refl _, rfl⟩, h.checked⟩
  unfold begin_task
  split
  · exact h
  dsimp only
  split
  · exact hasked.same ⟨rfl, rfl, rfl, rfl⟩
  · next hallowed =>
    split
    · exact hasked.same (switch_mode_lock c l s.clock start _)
    · refine ⟨hasked.lock, fun task hm => ?_⟩
      rcases List.mem_append.mp hm with hm | hm
      · exact hasked.checked task hm
      · obtain rfl := List.mem_singleton.mp hm
        refine ⟨le_refl _, fun other hne => ?_⟩
        show ¬ Holding (s.log.take s.log.length) _ _ other
        rw [List.take_length]
        exact h.allowed (by simpa using hallowed) hne

theorem taken_switch {step : Step K Client V} (h : s.SwitchInv c)
    (hs : s.taken c l float s.clock step = some s') : s'.SwitchInv c := by
  cases step with
  | message client message =>
    cases hs
    cases message with
    | drive linear angular speed => exact h.call float _
    | release => exact h.call float _
    | estop engaged => exact h.call float _
    | gizmo yaw pitch =>
      have hcall := h.call float (.aim_gizmo client yaw pitch)
      unfold handle
      dsimp only
      split
      · exact hcall.same ⟨rfl, rfl, rfl, rfl⟩
      · exact hcall
    | mode mode => exact h.same ⟨rfl, rfl, rfl, rfl⟩
  | disconnect client =>
    cases hs
    exact h.call float _
  | call op =>
    unfold taken at hs
    dsimp only at hs
    split at hs
    · cases hs
    · cases hs
      exact h.call float op
  | telemetry =>
    cases hs
    have hcall : SwitchInv c { s with bridge := (s.bridge.snapshot c s.clock).2 } := by
      have hlooked := perform_lock c float s.clock .snapshot s.bridge h.lock
      rw [show lock_events ⟨s.clock, (.snapshot : Op K Client V)⟩ s.bridge = [] from rfl,
        List.append_nil] at hlooked
      exact ⟨hlooked, h.checked⟩
    unfold telemetry
    dsimp only
    split
    · exact hcall
    · exact hcall.same (follow_status_lock _ _)
  | begin_task i start =>
    obtain ⟨request, -, rfl⟩ := Option.map_eq_some_iff.mp hs
    exact begin_task_switch (s := { s with spawned := s.spawned.eraseIdx i }) l start request
      (h.same ⟨rfl, rfl, rfl, rfl⟩)
  | acquire start =>
    unfold taken at hs
    dsimp only at hs
    split at hs
    · next task waiting _ hwaiting =>
      cases hs
      have hrest : SwitchInv c { s with waiting := waiting } :=
        ⟨h.lock, fun task hm => h.checked task (hwaiting ▸ List.mem_cons_of_mem _ hm)⟩
      exact hrest.same (switch_mode_lock c l s.clock start _)
    · cases hs
  | resume start reader => exact h.same (resume_lock c l s.clock hs)
  | process i change =>
    obtain ⟨launch, -, hs⟩ := Option.bind_eq_some_iff.mp hs
    obtain ⟨launch', -, rfl⟩ := Option.map_eq_some_iff.mp hs
    exact h.same ⟨rfl, rfl, rfl, rfl⟩
  | line text =>
    unfold taken at hs
    dsimp only at hs
    split at hs
    · cases hs
    split at hs
    · cases hs
    · cases hs
      exact h.same ⟨rfl, rfl, rfl, rfl⟩

theorem next_switch {e : ServerEvent K Client V} (h : s.SwitchInv c)
    (hn : next c l float s e s') : s'.SwitchInv c := by
  obtain ⟨hclock, hs⟩ := hn
  exact taken_switch l float (s := { s with clock := e.now }) (h.pass hclock) hs

/-- The task acts in this step: it has `mode_lock` and does not find its mode set already,
so it stops the follower or, without one, assigns the mode. -/
def Acts (s : WebServer K Client) (e : ServerEvent K Client V) (task : Switch Client) : Prop :=
  s.mode_lock = none ∧ ¬ (task.mode = s.mode ∧ s.mode_status ≠ .failed) ∧
    match e.step with
    | .begin_task i _ => s.waiting = [] ∧ s.spawned[i]? = some ⟨task.client, some task.mode⟩ ∧
        (s.bridge.may_control e.now task.client).1 = true ∧ task.checked = s.log.length
    | .acquire _ => s.waiting.head? = some task
    | _ => False

omit [IsStrictOrderedRing K] in
/-- Only a task that acts changes the mode or keeps `mode_lock`. -/
theorem idle_unless_acts {e : ServerEvent K Client V} (hn : next c l float s e s')
    (hfree : s.mode_lock = none) (hidle : ∀ task, ¬ Acts s e task) :
    s'.mode = s.mode ∧ s'.mode_lock = none := by
  have hswitch : ∀ (u : WebServer K Client) (now : K) (start : Start) (task : Switch Client),
      u.mode = s.mode → u.mode_status = s.mode_status →
      (task.mode = s.mode ∧ s.mode_status ≠ .failed) →
      (u.switch_mode c l now start task).mode = s.mode ∧
        (u.switch_mode c l now start task).mode_lock = none := by
    intro u now start task hmode hstatus hset
    rw [← hmode, ← hstatus] at hset
    rw [switch_mode, if_pos hset]
    exact ⟨hmode, rfl⟩
  obtain ⟨-, hs⟩ := hn
  obtain ⟨now, step⟩ := e
  cases step with
  | message client message =>
    cases hs
    cases message with
    | gizmo yaw pitch =>
      unfold handle
      dsimp only
      split
      · exact ⟨rfl, hfree⟩
      · exact ⟨rfl, hfree⟩
    | _ => exact ⟨rfl, hfree⟩
  | disconnect client =>
    cases hs
    exact ⟨rfl, hfree⟩
  | call op =>
    unfold taken at hs
    dsimp only at hs
    split at hs
    · cases hs
    · cases hs
      exact ⟨rfl, hfree⟩
  | telemetry =>
    cases hs
    unfold telemetry
    dsimp only
    split
    · exact ⟨rfl, hfree⟩
    · obtain ⟨hmode, hlock⟩ := follow_status_mode (s := { s with
        clock := now, bridge := (s.bridge.snapshot c now).2 }) _ _
      exact ⟨hmode, hlock.trans hfree⟩
  | begin_task i start =>
    obtain ⟨request, hrequest, rfl⟩ := Option.map_eq_some_iff.mp hs
    unfold begin_task
    split
    · exact ⟨rfl, hfree⟩
    · next mode hmode =>
      dsimp only
      split
      · exact ⟨rfl, hfree⟩
      · next hallowed =>
        split
        · next hwaiting =>
          refine hswitch _ _ _ _ rfl rfl ?_
          by_contra hset
          refine hidle ⟨request.client, mode, s.log.length⟩ ⟨hfree, hset, hwaiting, ?_, ?_, rfl⟩
          · rw [← hmode]
            exact hrequest
          · simpa using hallowed
        · exact ⟨rfl, hfree⟩
  | acquire start =>
    unfold taken at hs
    dsimp only at hs
    split at hs
    · next task waiting _ hwaiting =>
      cases hs
      refine hswitch _ _ _ _ rfl rfl ?_
      by_contra hset
      exact hidle task ⟨hfree, hset, by rw [hwaiting]; rfl⟩
    · cases hs
  | resume start reader =>
    unfold taken resume at hs
    dsimp only at hs
    rw [hfree] at hs
    cases hs
  | process i change =>
    obtain ⟨launch, -, hs⟩ := Option.bind_eq_some_iff.mp hs
    obtain ⟨launch', -, rfl⟩ := Option.map_eq_some_iff.mp hs
    exact ⟨rfl, hfree⟩
  | line text =>
    unfold taken at hs
    dsimp only at hs
    split at hs
    · cases hs
    split at hs
    · cases hs
    · cases hs
      exact ⟨rfl, hfree⟩

/-- Whoever acts in this step, no other client holds the driver lock at that moment. -/
def Respects (s : WebServer K Client) (e : ServerEvent K Client V) : Prop :=
  ∀ task, Acts s e task → ∀ other, other ≠ task.client →
    (s.bridge.driver_lock.holder e.now).1 ≠ some other

variable (c)

/-- Whoever acts in this step, every request that was granted to another client since the
check of the task is `driver_timeout` old, or that client has disconnected after it. -/
def Undisputed (s : WebServer K Client) (e : ServerEvent K Client V) : Prop :=
  ∀ task, Acts s e task → ∀ other, other ≠ task.client →
    ¬ Holding (s.log.drop task.checked) c.driver_timeout e.now other

variable {c}

omit [FloorRing K] in
theorem SwitchInv.acts_checked {e : ServerEvent K Client V} {task : Switch Client}
    (h : s.SwitchInv c) (hle : s.clock ≤ e.now) (ha : Acts s e task) {other : Client}
    (hne : other ≠ task.client) :
    ¬ Holding (s.log.take task.checked) c.driver_timeout e.now other := by
  obtain ⟨-, -, hstep⟩ := ha
  split at hstep
  · obtain ⟨-, -, hallowed, hchecked⟩ := hstep
    rw [hchecked, List.take_length]
    exact (h.pass hle).allowed hallowed hne
  · have hwaiting : task ∈ s.waiting := List.mem_of_mem_head? hstep
    exact fun hholding => (h.checked task hwaiting).2 other hne (hholding.earlier hle)
  · exact hstep.elim

omit [IsStrictOrderedRing K] [FloorRing K] in
/-- A task that does not wait for `mode_lock` acts at its check. -/
theorem undisputed_unless_acquire {e : ServerEvent K Client V}
    (h : ∀ start, e.step ≠ .acquire start) : Undisputed c s e := by
  intro task hacts other _ hholding
  obtain ⟨-, -, hstep⟩ := hacts
  split at hstep
  · obtain ⟨-, -, -, hchecked⟩ := hstep
    rw [hchecked, List.drop_length] at hholding
    obtain ⟨before, time, after, hempty, -⟩ := hholding
    cases before with
    | nil => cases hempty
    | cons _ _ => cases hempty
  · next start hacquire => exact h start hacquire
  · exact hstep

omit [FloorRing K] in
theorem respects_iff {e : ServerEvent K Client V} (h : s.SwitchInv c) (hle : s.clock ≤ e.now) :
    Respects s e ↔ Undisputed c s e := by
  refine forall_congr' fun task => forall_congr' fun ha => forall_congr' fun other =>
    forall_congr' fun hne => not_congr ⟨fun hholder => ?_, fun hholding => ?_⟩
  · have hcurrent := h.lock.current (DriverLock.held_of_holder hholder)
    exact (hcurrent.holding.split task.checked).resolve_left (h.acts_checked hle ha hne)
  · have hlog : Holding s.log c.driver_timeout e.now other := by
      rw [← List.take_append_drop task.checked s.log]
      exact hholding.append _
    rw [DriverLock.holder_held (h.lock.held e.now other hle hlog)]

omit [IsStrictOrderedRing K] [FloorRing K] [DecidableEq Client] in
theorem start_switch (t : K) : (start c t : WebServer K Client).SwitchInv c := by
  have hlock : (RobotBridge.init c t : RobotBridge K Client).driver_lock =
      { timeout := c.driver_timeout } := by
    unfold RobotBridge.init
    dsimp only
    split
    · rfl
    · rfl
  refine ⟨?_, fun task hm => by cases hm⟩
  show LockInv c.driver_timeout ⟨t, (RobotBridge.init c t).driver_lock, []⟩
  rw [hlock]
  exact LockInv.start c.driver_timeout t

/-- In a run, every task acts while no other client holds the driver lock exactly if
whenever one acts, no request granted to another client since its check is in force. -/
theorem switches_respect_lock {t : K} {es : List (ServerEvent K Client V)} :
    Run (fun s e s' => next c l float s e s' ∧ Respects s e) (start c t) es s ↔
      Run (fun s e s' => next c l float s e s' ∧ Undisputed c s e) (start c t) es s :=
  Run.iff_of_invariant (SwitchInv c) (start_switch t) (fun _ _ _ h hn => next_switch l float h hn)
    fun _ _ _ h hn => respects_iff h hn.1

end Checked

section Concrete

/-- Two switches, each at its check. -/
theorem switches_respect_lock_orphan : ∃ s : WebServer Rat String,
    Run (fun s e s' => next web_controller_yaml behavior_launches float_of s e s' ∧ Respects s e)
      (start web_controller_yaml 0) orphan s := by
  obtain ⟨s, hs⟩ : ∃ s, played orphan = some s := Option.isSome_iff_exists.mp (by decide +kernel)
  have hrun := run_play _ _ _ hs
  have hnone : ∀ e ∈ orphan, ∀ start, e.step ≠ .acquire start := by
    unfold orphan
    simp
  have hundisputed := hrun.and_of_mem (P := fun s e _ => Undisputed web_controller_yaml s e)
    fun e he _ _ => undisputed_unless_acquire (hnone e he)
  exact ⟨s, (switches_respect_lock _ _).mpr hundisputed⟩

/-- The phone switches from Follow ball to Follow person, and while the launch takes its time to
stop it asks for Drive mode. Then the tablet starts to drive. -/
def overtaken : List ServerCall :=
  [⟨0, .message "phone" (.mode (some .BALL))⟩, ⟨0, .begin_task 0 .forked⟩, ⟨1, .resume .forked .ended⟩,
    ⟨2, .message "phone" (.mode (some .PERSON))⟩, ⟨2, .begin_task 0 .forked⟩,
    ⟨3, .message "phone" (.mode (some .DRIVE))⟩, ⟨3, .begin_task 0 .forked⟩,
    ⟨4, .message "tablet" (.drive (.fin 1) (.fin 0) (.fin 1))⟩,
    ⟨5, .process 0 .launch_exits⟩, ⟨5, .process 0 (.reaped 0)⟩, ⟨5, .resume .forked .ended⟩,
    ⟨5, .resume .forked .ended⟩, ⟨5, .resume .forked .ended⟩]

/-- What the next step finds. -/
def outlook (s : WebServer Rat String) :
    Bool × Bool × List (String × Mode) × Mode × Option String × Bool :=
  (decide (s.clock ≤ 5), s.mode_lock.isNone, s.waiting.map fun task => (task.client, task.mode),
    s.mode, (s.bridge.driver_lock.holder 5).1,
    ({ s with clock := 5 }.taken web_controller_yaml behavior_launches float_of 5
      (.acquire .forked : Step Rat String (Dbl Rat))).isSome)

theorem overtaken_played : (played overtaken).any (fun s =>
    outlook s = (true, true, [("phone", .DRIVE)], .PERSON, some "tablet", true)) := by
  decide +kernel

/-- The phone's second switch acts although the tablet holds the driver lock. -/
theorem switch_under_driver : ∃ s s' : WebServer Rat String,
    Run (next web_controller_yaml behavior_launches float_of) (start web_controller_yaml 0)
      overtaken s ∧
    next web_controller_yaml behavior_launches float_of s ⟨5, .acquire .forked⟩ s' ∧
    ¬ Respects s (⟨5, .acquire .forked⟩ : ServerCall) := by
  obtain ⟨s, hs, houtlook⟩ := (Option.any_eq_true _ _).mp overtaken_played
  simp only [outlook, decide_eq_true_iff, Prod.mk.injEq] at houtlook
  obtain ⟨hclock, hfree, hwaiting, hmode, hholder, hacquires⟩ := houtlook
  obtain ⟨s', hs'⟩ := Option.isSome_iff_exists.mp hacquires
  obtain ⟨task, rest, hhead, hphone⟩ := List.map_eq_cons_iff.mp hwaiting
  obtain ⟨⟨hclient, hdrive⟩, -⟩ : (task.client = "phone" ∧ task.mode = .DRIVE) ∧ _ :=
    ⟨Prod.mk.injEq .. ▸ hphone.1, hphone.2⟩
  refine ⟨s, s', run_play _ _ _ hs, ⟨hclock, hs'⟩, fun hrespects => ?_⟩
  refine hrespects task ⟨Option.isNone_iff_eq_none.mp hfree, ?_, by rw [hhead]; rfl⟩ "tablet" ?_ hholder
  · rw [hdrive, hmode]
    exact fun h => by cases h.1
  · rw [hclient]
    decide

end Concrete

end WebServer

end IotRobot.Web
