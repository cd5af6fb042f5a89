import IotRobot.Web.Authority
import IotRobot.Web.Server

/-!
# At most one follower

Whatever the tasks, the processes and telemetry do, a launch that is still alive is the one
of `self.follow` or the one that the task with `mode_lock` is starting. In Drive mode there
is no follower at all.
-/

namespace IotRobot.Web

open Lib

set_option autoImplicit false

theorem Launch.after_alive {launch launch' : Launch} {change : Launch.Change}
    (h : launch.after change = some launch') (halive : launch'.alive = true) :
    launch.alive = true := by
  cases change with
  | forks =>
    simp only [Launch.after, Option.ite_none_right_eq_some] at h
    exact h.1
  | launch_exits =>
    simp only [Launch.after, Option.ite_none_right_eq_some] at h
    rw [Launch.alive, h.1]
    rfl
  | node_exits =>
    simp only [Launch.after, Option.ite_none_right_eq_some] at h
    rw [Launch.alive, decide_eq_true h.1, Bool.or_true]
  | reaped code =>
    simp only [Launch.after, Option.ite_none_right_eq_some] at h
    obtain ⟨-, h⟩ := h
    obtain rfl := Option.some.inj h
    exact halive

namespace WebServer

section Alive
variable {K Client : Type} {s s' : WebServer K Client}

/-- Some process of launch `i` is alive. -/
def Alive (s : WebServer K Client) (i : Nat) : Prop :=
  ∃ launch, s.launches[i]? = some launch ∧ launch.alive = true

/-- Launch `i` belongs to `self.follow`. -/
def Follows (s : WebServer K Client) (i : Nat) : Prop :=
  ∃ follow, s.follow = some follow ∧ follow.process = some i

/-- Launch `i` is the start in progress. -/
def Starts (s : WebServer K Client) (i : Nat) : Prop :=
  ∃ task, s.mode_lock = some (task, .starting i)

/-- What is true of `self.follow` while the task that holds `mode_lock` waits. -/
def Stands (s : WebServer K Client) (follow : FollowProcess) : Await → Prop
  | .interrupting => True
  | .reaping | .draining => ∀ i, ¬ s.Alive i
  | .starting _ => follow.process = none

structure ModeInv (s : WebServer K Client) : Prop where
  modes : s.mode = s.bridge.mode
  drive : s.mode = .DRIVE → s.follow = none
  owned : ∀ i, s.Alive i → s.Follows i ∨ s.Starts i
  stands : ∀ task await, s.mode_lock = some (task, await) →
    ∃ follow, s.follow = some follow ∧ s.Stands follow await

theorem Follows.process {i : Nat} {follow : FollowProcess} (h : s.Follows i)
    (hfollow : s.follow = some follow) : follow.process = some i := by
  obtain ⟨other, hother, hprocess⟩ := h
  rw [hfollow] at hother
  obtain rfl := Option.some.inj hother
  exact hprocess

theorem ModeInv.standing {task : Switch Client} {await : Await} {follow : FollowProcess}
    (h : s.ModeInv) (hlock : s.mode_lock = some (task, await)) (hfollow : s.follow = some follow) :
    s.Stands follow await := by
  obtain ⟨other, hother, hstands⟩ := h.stands task await hlock
  rw [hfollow] at hother
  obtain rfl := Option.some.inj hother
  exact hstands

/-- A step that leaves these alone, and lets processes end at most, keeps the invariant. -/
theorem ModeInv.same (h : s.ModeInv) (hmode : s'.mode = s.mode)
    (hbridge : s'.bridge.mode = s.bridge.mode) (hfollow : s'.follow = s.follow)
    (hlock : s'.mode_lock = s.mode_lock) (halive : ∀ i, s'.Alive i → s.Alive i) : s'.ModeInv := by
  refine ⟨by rw [hmode, hbridge, h.modes], fun hd => ?_, fun i hi => ?_, fun task await hl => ?_⟩
  · rw [hfollow]
    exact h.drive (hmode ▸ hd)
  · rw [Follows, Starts, hfollow, hlock]
    exact h.owned i (halive i hi)
  · rw [hlock] at hl
    obtain ⟨follow, hf, hstands⟩ := h.stands task await hl
    refine ⟨follow, hfollow.trans hf, ?_⟩
    cases await with
    | interrupting => trivial
    | reaping => exact fun i hi => hstands i (halive i hi)
    | draining => exact fun i hi => hstands i (halive i hi)
    | starting i => exact hstands

/-- The lock is free again and no launch is being started. -/
theorem ModeInv.unlocked (h : s.ModeInv) (hlock : ∀ i, ¬ s.Starts i) :
    ModeInv { s with mode_lock := none } := by
  refine ⟨h.modes, h.drive, fun i hi => ?_, fun task await hl => by cases hl⟩
  exact .inl ((h.owned i hi).resolve_right (hlock i))

theorem not_starts_of_free (h : s.mode_lock = none) (i : Nat) : ¬ s.Starts i := by
  rintro ⟨task, hl⟩
  rw [h] at hl
  cases hl

/-- Once its group is killed, no launch is alive. -/
theorem kill_dead {follow : FollowProcess} (h : ∀ i, s.Alive i → follow.process = some i)
    (i : Nat) : ¬ (s.kill follow).Alive i := by
  rintro ⟨launch, hget, halive⟩
  unfold kill at hget
  cases hp : follow.process with
  | none =>
    rw [hp] at hget
    have hfollows := h i ⟨launch, hget, halive⟩
    rw [hp] at hfollows
    cases hfollows
  | some j =>
    rw [hp] at hget
    obtain ⟨old, hold, heq⟩ : ∃ old, s.launches[i]? = some old ∧
        (if j = i then old.killed else old) = launch := by
      simpa [List.getElem?_modify] using hget
    by_cases hji : j = i
    · rw [if_pos hji] at heq
      rw [← heq] at halive
      cases halive
    · rw [if_neg hji] at heq
      rw [← heq] at halive
      have hfollows := h i ⟨old, hold, halive⟩
      rw [hp] at hfollows
      exact hji (Option.some.inj hfollows)

/-- What is alive belongs to `follow`, unless a launch is being started. -/
theorem ModeInv.belongs (h : s.ModeInv) {follow : FollowProcess} (hfollow : s.follow = some follow)
    (hlock : ∀ i, ¬ s.Starts i) {i : Nat} (hi : s.Alive i) : follow.process = some i := by
  rcases h.owned i hi with hfollows | hstarts
  · exact hfollows.process hfollow
  · exact absurd hstarts (hlock i)

theorem kill_launch_inv {task : Switch Client} {follow : FollowProcess} (h : s.ModeInv)
    (hfollow : s.follow = some follow) (hlock : ∀ i, ¬ s.Starts i) :
    (s.kill_launch task follow).ModeInv := by
  have hdead := kill_dead fun i hi => h.belongs hfollow hlock hi
  have hfields : (s.kill follow).mode = s.mode ∧ (s.kill follow).bridge = s.bridge ∧
      (s.kill follow).follow = s.follow := by
    unfold kill
    split
    · exact ⟨rfl, rfl, rfl⟩
    · exact ⟨rfl, rfl, rfl⟩
  obtain ⟨hmode, hbridge, hkept⟩ := hfields
  have hwaits : ∀ await, (s.kill follow).Stands follow await →
      ModeInv { s.kill follow with mode_lock := some (task, await) } := by
    intro await hstands
    refine ⟨by rw [hmode, hbridge, h.modes], fun hd => ?_, fun i hi => absurd hi (hdead i), ?_⟩
    · rw [hkept]
      exact h.drive (hmode ▸ hd)
    · rintro _ _ ⟨⟩
      exact ⟨follow, hkept.trans hfollow, hstands⟩
  unfold kill_launch
  dsimp only
  split
  · exact hwaits .reaping hdead
  · exact hwaits .draining hdead

theorem ModeInv.add_line (h : s.ModeInv) {follow : FollowProcess} (hfollow : s.follow = some follow)
    (text : String) : ModeInv { s with follow := some (follow.add_line text) } := by
  have hprocess : (follow.add_line text).process = follow.process := by
    unfold FollowProcess.add_line
    split
    · rfl
    · rfl
  refine ⟨h.modes, fun hd => ?_, fun i hi => ?_, fun task await hl => ?_⟩
  · rw [h.drive hd] at hfollow
    cases hfollow
  · refine (h.owned i hi).imp_left fun hfollows => ?_
    exact ⟨_, rfl, hprocess.trans (hfollows.process hfollow)⟩
  · have hstands := h.standing hl hfollow
    refine ⟨_, rfl, ?_⟩
    cases await with
    | interrupting => trivial
    | reaping => exact hstands
    | draining => exact hstands
    | starting i => exact hprocess.trans hstands

theorem follow_status_inv (h : s.ModeInv) (follower_ready detector_ready : Bool) :
    (s.follow_status follower_ready detector_ready).ModeInv := by
  have hsame : ∀ status detail,
      ModeInv { s with mode_status := status, mode_detail := detail } :=
    fun _ _ => h.same rfl rfl rfl rfl fun _ hi => hi
  unfold follow_status
  split
  · exact h
  split
  · exact h
  split
  · exact h
  split
  · exact hsame _ _
  split
  · exact hsame _ _
  · exact h

end Alive

section Switching
variable {K Client V : Type} [Field K] [LinearOrder K] [DecidableEq Client]
variable (c : Parameters K) (l : LaunchParameters) (float : V → FloatResult K) (now : K)
variable {s s' : WebServer K Client}

omit [LinearOrder K] [DecidableEq Client] in
/-- Assigning the mode once no launch is alive. -/
theorem assign_mode_inv (start : Start) (task : Switch Client) (hdead : ∀ i, ¬ s.Alive i)
    (hfollow : s.follow = none) : (s.assign_mode c l now start task).ModeInv := by
  have hbridge : (s.bridge.set_mode c task.mode).mode = task.mode := by
    unfold RobotBridge.set_mode
    dsimp only
    split
    · rfl
    · rfl
  unfold assign_mode
  dsimp only
  split
  · refine ⟨hbridge.symm, fun _ => hfollow, fun i hi => absurd hi (hdead i), ?_⟩
    rintro _ _ ⟨⟩
  · next hmode =>
    cases start with
    | forked =>
      refine ⟨hbridge.symm, fun hd => absurd hd hmode, fun i hi => .inr ?_, ?_⟩
      · -- the launches before this one are dead
        obtain ⟨launch, hget, halive⟩ := hi
        rcases Nat.lt_trichotomy i s.launches.length with hlt | heq | hgt
        · rw [List.getElem?_append_left hlt] at hget
          exact absurd ⟨launch, hget, halive⟩ (hdead i)
        · exact ⟨task, by rw [heq]⟩
        · rw [List.getElem?_eq_none (by rw [List.length_append]; exact hgt)] at hget
          cases hget
      · rintro _ _ ⟨⟩
        exact ⟨_, rfl, rfl⟩
    | os_error error =>
      refine ⟨hbridge.symm, fun hd => absurd hd hmode, fun i hi => absurd hi (hdead i), ?_⟩
      rintro _ _ ⟨⟩
    | raised =>
      refine ⟨hbridge.symm, fun hd => absurd hd hmode, fun i hi => absurd hi (hdead i), ?_⟩
      rintro _ _ ⟨⟩

omit [LinearOrder K] [DecidableEq Client] in
theorem switch_mode_inv (start : Start) (task : Switch Client) (h : s.ModeInv)
    (hlock : s.mode_lock = none) : (s.switch_mode c l now start task).ModeInv := by
  have hfree := not_starts_of_free hlock
  unfold switch_mode
  split
  · exact h.unlocked hfree
  split
  · next hnone =>
    refine assign_mode_inv c l now start task (fun i hi => ?_) hnone
    rcases h.owned i hi with ⟨follow, hsome, -⟩ | hstarts
    · rw [hnone] at hsome
      cases hsome
    · exact hfree i hstarts
  · next follow hfollow =>
    dsimp only
    split
    · next hprocess =>
      refine assign_mode_inv c l now start task (fun i hi => ?_) rfl
      have hbelongs := h.belongs hfollow hfree hi
      rw [hprocess] at hbelongs
      cases hbelongs
    have hstopping : ModeInv { s with mode_status := .stopping } :=
      h.same rfl rfl rfl rfl fun _ hi => hi
    split
    · refine ⟨h.modes, h.drive, fun i hi => .inl ?_, ?_⟩
      · exact ⟨follow, hfollow, h.belongs hfollow hfree hi⟩
      · rintro _ _ ⟨⟩
        exact ⟨follow, hfollow, trivial⟩
    · exact kill_launch_inv hstopping hfollow hfree

theorem begin_task_inv (start : Start) (request : Request Client) (h : s.ModeInv) :
    (s.begin_task c l now start request).ModeInv := by
  have hasked : ModeInv { s with bridge := (s.bridge.may_control now request.client).2 } :=
    h.same rfl rfl rfl rfl fun _ hi => hi
  unfold begin_task
  split
  · exact h
  dsimp only
  split
  · exact hasked.same rfl rfl rfl rfl fun _ hi => hi
  split
  · next hlock _ => exact switch_mode_inv c l now start _ hasked hlock
  · exact hasked.same rfl rfl rfl rfl fun _ hi => hi

omit [LinearOrder K] [DecidableEq Client] in
theorem resume_inv {start : Start} {reader : ReaderEnd} (h : s.ModeInv)
    (hs : s.resume c l now start reader = some s') : s'.ModeInv := by
  have hother : ∀ {task await}, s.mode_lock = some (task, await) → (∀ i, await ≠ .starting i) →
      ∀ i, ¬ s.Starts i := by
    rintro task await hlock hne i ⟨_, hstarts⟩
    rw [hlock] at hstarts
    cases hstarts
    exact hne i rfl
  unfold resume at hs
  split at hs
  · next task follow hlock hfollow =>
    cases hs
    exact kill_launch_inv h hfollow (hother hlock nofun)
  · next task follow hlock hfollow =>
    split at hs
    · cases hs
    · cases hs
      have hdead : ∀ i, ¬ s.Alive i := h.standing hlock hfollow
      refine ⟨h.modes, h.drive, fun i hi => absurd hi (hdead i), ?_⟩
      rintro _ _ ⟨⟩
      exact ⟨follow, hfollow, hdead⟩
  · next task hlock =>
    obtain ⟨_, -, hdead⟩ := h.stands task _ hlock
    cases reader with
    | ended =>
      cases hs
      exact assign_mode_inv c l now start task hdead rfl
    | raised =>
      cases hs
      exact h.unlocked (hother hlock nofun)
  · next task i follow hlock hfollow =>
    cases hs
    have hnone : follow.process = none := h.standing hlock hfollow
    refine ⟨h.modes, fun hd => ?_, fun j hj => .inl ?_, ?_⟩
    · rw [h.drive hd] at hfollow
      cases hfollow
    · -- the only launch that can be alive is the one just started
      rcases h.owned j hj with hfollows | ⟨_, hstarts⟩
      · cases hnone.symm.trans (hfollows.process hfollow)
      · rw [hlock] at hstarts
        cases hstarts
        exact ⟨_, rfl, rfl⟩
    · rintro _ _ ⟨⟩
  · cases hs

omit [Field K] [LinearOrder K] [DecidableEq Client] in
/-- Nothing but a start brings a launch to life. -/
theorem change_alive {s : WebServer K Client} {i j : Nat} {launch launch' : Launch}
    {change : Launch.Change} (hget : s.launches[i]? = some launch)
    (hchange : launch.after change = some launch')
    (hj : Alive { s with launches := s.launches.set i launch' } j) : s.Alive j := by
  obtain ⟨found, hfound, halive⟩ := hj
  rw [List.getElem?_set] at hfound
  by_cases hij : i = j
  · subst hij
    rw [if_pos rfl] at hfound
    split at hfound
    · obtain rfl := Option.some.inj hfound
      exact ⟨launch, hget, launch.after_alive hchange halive⟩
    · cases hfound
  · rw [if_neg hij] at hfound
    exact ⟨found, hfound, halive⟩

variable [FloorRing K]

theorem call_inv (op : Op K Client V) (hop : op.sets_mode = false) (h : s.ModeInv) :
    (s.call c float now op).ModeInv :=
  have hmode := (perform_untouched c float ⟨now, op⟩ s.bridge).mode fun mode h => by
    rw [show op = .set_mode mode from h] at hop
    cases hop
  h.same rfl hmode rfl rfl fun _ hi => hi

theorem taken_inv {step : Step K Client V} (h : s.ModeInv)
    (hs : s.taken c l float now step = some s') : s'.ModeInv := by
  cases step with
  | message client message =>
    cases hs
    cases message with
    | drive linear angular speed => exact call_inv c float now _ rfl h
    | release => exact call_inv c float now _ rfl h
    | estop engaged => exact call_inv c float now _ rfl h
    | gizmo yaw pitch =>
      have hcall := call_inv c float now (.aim_gizmo client yaw pitch) rfl h
      unfold handle
      dsimp only
      split
      · exact hcall.same rfl rfl rfl rfl fun _ hi => hi
      · exact hcall
    | mode mode => exact h.same rfl rfl rfl rfl fun _ hi => hi
  | disconnect client =>
    cases hs
    exact call_inv c float now _ rfl h
  | call op =>
    unfold taken at hs
    dsimp only at hs
    split at hs
    · cases hs
    · next hop =>
      cases hs
      exact call_inv c float now op (Bool.eq_false_iff.mpr hop) h
  | telemetry =>
    cases hs
    have hbridge : ModeInv { s with bridge := (s.bridge.snapshot c now).2 } :=
      h.same rfl ((perform_untouched c float ⟨now, .snapshot⟩ s.bridge).mode nofun) rfl rfl
        fun _ hi => hi
    unfold telemetry
    dsimp only
    split
    · exact hbridge
    · exact follow_status_inv hbridge _ _
  | begin_task i start =>
    obtain ⟨request, -, rfl⟩ := Option.map_eq_some_iff.mp hs
    exact begin_task_inv c l now start request (h.same rfl rfl rfl rfl fun _ hi => hi)
  | acquire start =>
    unfold taken at hs
    dsimp only at hs
    split at hs
    · next hlock _ =>
      cases hs
      exact switch_mode_inv c l now start _ (h.same rfl rfl rfl rfl fun _ hi => hi) hlock
    · cases hs
  | resume start reader => exact resume_inv c l now h hs
  | process i change =>
    obtain ⟨launch, hget, hs⟩ := Option.bind_eq_some_iff.mp hs
    obtain ⟨launch', hchange, rfl⟩ := Option.map_eq_some_iff.mp hs
    exact h.same rfl rfl rfl rfl fun j hj => change_alive hget hchange hj
  | line text =>
    unfold taken at hs
    dsimp only at hs
    split at hs
    · cases hs
    · next follow hfollow =>
      split at hs
      · cases hs
      · cases hs
        exact h.add_line hfollow text

omit [LinearOrder K] [DecidableEq Client] [FloorRing K] in
theorem start_inv (t : K) : (start c t : WebServer K Client).ModeInv := by
  have hmode : (RobotBridge.init c t : RobotBridge K Client).mode = .DRIVE := by
    unfold RobotBridge.init
    dsimp only
    split
    · rfl
    · rfl
  refine ⟨hmode.symm, fun _ => rfl, ?_, ?_⟩
  · rintro i ⟨launch, hget, -⟩
    cases hget
  · rintro _ _ ⟨⟩

theorem run_modes {t : K} {es : List (ServerEvent K Client V)}
    (h : Run (next c l float) (start c t) es s) : s.ModeInv := by
  refine h.invariant ModeInv (start_inv c t) fun a b e ha hn => ?_
  have hclock : ModeInv { a with clock := e.now } := ha.same rfl rfl rfl rfl fun _ hi => hi
  exact taken_inv c l float e.now hclock hn.2

/-- In every state that the tasks, the processes and telemetry can reach, at most one launch
is alive. It belongs to `self.follow` or is being started by the task with `mode_lock`. The
server and its bridge are in the same mode, and once Drive mode is ready nothing is left. -/
theorem one_follower {t : K} {es : List (ServerEvent K Client V)}
    (h : Run (next c l float) (start c t) es s) :
    (∀ i j, s.Alive i → s.Alive j → i = j) ∧
    (∀ i, s.Alive i → s.Follows i ∨ s.Starts i) ∧
    s.mode = s.bridge.mode ∧
    (s.mode = .DRIVE → s.mode_status = .ready → ∀ i, ¬ s.Alive i) := by
  have hinv := run_modes c l float h
  have hnever : ∀ {i j}, s.Follows i → ¬ s.Starts j := by
    rintro i j ⟨follow, hfollow, hprocess⟩ ⟨task, hlock⟩
    have hnone : follow.process = none := hinv.standing hlock hfollow
    cases hnone.symm.trans hprocess
  refine ⟨fun i j hi hj => ?_, hinv.owned, hinv.modes, fun hdrive _ i hi => ?_⟩
  · rcases hinv.owned i hi with hi | hi
    · obtain ⟨follow, hfollow, hprocess⟩ := hi
      rcases hinv.owned j hj with hfollows | hj
      · exact Option.some.inj (hprocess.symm.trans (hfollows.process hfollow))
      · exact absurd hj (hnever ⟨follow, hfollow, hprocess⟩)
    · rcases hinv.owned j hj with hj | hj
      · exact absurd hi (hnever hj)
      · obtain ⟨task, hlock⟩ := hi
        obtain ⟨other, hsame⟩ := hj
        rw [hlock] at hsame
        cases hsame
        rfl
  · have hnone := hinv.drive hdrive
    rcases hinv.owned i hi with ⟨follow, hfollow, -⟩ | ⟨task, hlock⟩
    · rw [hnone] at hfollow
      cases hfollow
    · obtain ⟨follow, hfollow, -⟩ := hinv.stands task _ hlock
      rw [hnone] at hfollow
      cases hfollow

end Switching

section Concrete

abbrev ServerCall := ServerEvent Rat String (Dbl Rat)

/-- The defaults of the launch parameters. -/
def behavior_launches : LaunchParameters where
  ros2 := "ros2"
  launch_package := "iot_robot_behavior"
  launch_files
    | .PERSON => "person_follow.launch.py"
    | _ => "ball_follow.launch.py"
  use_sim_time := false

def played (es : List ServerCall) : Option (WebServer Rat String) :=
  (start web_controller_yaml 0).play web_controller_yaml behavior_launches float_of es

/-- The ball follower runs and starts a node, its launch exits, and the node is left behind
when the mode switches to Follow person. -/
def orphan : List ServerCall :=
  [⟨0, .message "phone" (.mode (some .BALL))⟩, ⟨0, .begin_task 0 .forked⟩, ⟨1, .resume .forked .ended⟩,
    ⟨2, .process 0 .forks⟩, ⟨3, .process 0 .launch_exits⟩, ⟨3, .process 0 (.reaped 1)⟩,
    ⟨4, .telemetry⟩, ⟨5, .message "phone" (.mode (some .PERSON))⟩, ⟨5, .begin_task 0 .forked⟩,
    ⟨6, .resume .forked .ended⟩]

theorem orphan_played : ((played orphan).map fun s =>
    (s.launches.map Launch.alive, s.launches.map Launch.nodes)) =
      some ([false, true], [0, 0]) := by
  decide +kernel

/-- The node left behind was killed before the next follower started. -/
theorem one_follower_orphan : ∃ s, played orphan = some s ∧ s.Alive 1 ∧ ∀ i, s.Alive i → i = 1 := by
  have hplayed := orphan_played
  obtain ⟨s, hs⟩ : ∃ s, played orphan = some s := Option.isSome_iff_exists.mp (by decide +kernel)
  rw [hs] at hplayed
  have hlaunches : s.launches.map Launch.alive = [false, true] :=
    congrArg Prod.fst (Option.some.inj hplayed)
  have halive : s.Alive 1 := by
    have hget : (s.launches.map Launch.alive)[1]? = some true := by rw [hlaunches]; rfl
    rw [List.getElem?_map] at hget
    obtain ⟨launch, hlaunch, h⟩ := Option.map_eq_some_iff.mp hget
    exact ⟨launch, hlaunch, h⟩
  have hone := one_follower web_controller_yaml behavior_launches float_of (run_play _ _ _ hs)
  exact ⟨s, hs, halive, fun i hi => hone.1 i 1 hi halive⟩

end Concrete

end WebServer

end IotRobot.Web
