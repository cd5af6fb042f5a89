import IotRobot.Web.Guard

/-!
# When the guard holds back more

A tick that holds back a forward command holds back a faster one, a reading that is smaller
or missing, and a later instant as well. The page asks the guard about a robot at rest; what
it then shows as blocked is blocked at a tick, unless the cap of 0.3 m comes in between.
-/

namespace IotRobot.Web

open Lib

set_option autoImplicit false

section Distances
variable {K : Type} [Field K] [LinearOrder K]

/-- The guard lets a command pass, or cuts it off at zero and says what is in the way. -/
theorem guard_command_cases (linear : K) (distances : Side → Option (Dbl K)) (stop_distance : K)
    (require_data : Bool) :
    guard_command linear distances stop_distance require_data = (linear, none) ∨
      ∃ blocking, guard_command linear distances stop_distance require_data =
        (min linear 0, some blocking) := by
  have hmissing : guard_missing linear distances require_data = (linear, none) ∨
      ∃ blocking, guard_missing linear distances require_data =
        (min linear 0, some blocking) := by
    unfold guard_missing
    split
    · exact .inr ⟨_, rfl⟩
    · exact .inl rfl
  unfold guard_command
  split
  · exact .inl rfl
  split
  · split
    · exact .inr ⟨_, rfl⟩
    · exact hmissing
  · exact hmissing

/-- What the guard reports does not depend on the command. -/
theorem guard_command_blocking [IsStrictOrderedRing K] (distances : Side → Option (Dbl K))
    {stop_distance : K} (hstop : 0 < stop_distance) (require_data : Bool) :
    (guard_command 1 distances stop_distance require_data).2.isSome = true ↔
      Near distances stop_distance ∨ (require_data = true ∧ Missing distances) := by
  rw [← guard_command_forward zero_lt_one distances hstop require_data]
  rcases guard_command_cases 1 distances stop_distance require_data with h | ⟨blocking, h⟩
  · rw [h]
    exact iff_of_false Bool.false_ne_true (not_le.mpr zero_lt_one)
  · rw [h]
    exact iff_of_true rfl (min_le_right _ _)

omit [Field K] in
theorem Near.mono {distances : Side → Option (Dbl K)} {a b : K} (h : Near distances a)
    (hle : a ≤ b) : Near distances b := by
  obtain ⟨side, d, hd, hlt⟩ := h
  refine ⟨side, d, hd, ?_⟩
  rw [← min_eq_left hle, Dbl.lt_fin_min] at hlt
  exact hlt.2

/-- The reading in its place is missing or not larger. -/
def Worse (old new : Option (Dbl K)) : Prop :=
  is_missing new = true ∨ ∃ d d', old = some d ∧ new = some d' ∧ d' ≤ d

omit [Field K] in
/-- Worse readings are near or missing where the old ones were. -/
theorem blocked_of_worse {old new : Side → Option (Dbl K)} (h : ∀ side, Worse (old side) (new side))
    {stop_distance : K} (hold : Near old stop_distance ∨ Missing old) :
    Near new stop_distance ∨ Missing new := by
  by_cases hmissing : Missing new
  · exact .inr hmissing
  have hkept : ∀ side, ∃ d d', old side = some d ∧ new side = some d' ∧ d' ≤ d := by
    intro side
    exact (h side).resolve_left fun hm => hmissing ⟨side, hm⟩
  rcases hold with ⟨side, d, hd, hlt⟩ | ⟨side, hm⟩
  · obtain ⟨e, d', he, hd', hle⟩ := hkept side
    obtain rfl := Option.some.inj (hd.symm.trans he)
    exact .inl ⟨side, d', hd', Dbl.lt_of_le_of_lt hle hlt⟩
  · -- nothing is at most NaN
    obtain ⟨d, d', hd, hd', hle⟩ := hkept side
    rw [hd] at hm
    cases d with
    | nan => exact absurd hle (Dbl.not_le_nan d')
    | ninf => cases hm
    | fin x => cases hm
    | pinf => cases hm

end Distances

section Tick
variable {K Client V : Type} [Field K] [LinearOrder K] [DecidableEq Client]
variable (c : Parameters K)

/-- At `now` the live command drives forward at `v`. -/
def Forward (s : RobotBridge K Client) (now v : K) : Prop :=
  (s.live_command c now).map Command.linear = some v ∧ 0 < v

/-- A tick at `now` holds back the forward command `v`. -/
def HoldsBack (s : RobotBridge K Client) (now v : K) : Prop :=
  Forward c s now v ∧ ∃ u w, sent_in s (s.on_drive_timer c now) = [.twist u w] ∧ u < v

/-- A stored reading that a missing one has replaced, or one that is not larger. -/
def WorseStored (old new : Option (Dbl K) × Dbl K) : Prop :=
  is_missing new.1 = true ∨ (new.2 = old.2 ∧ Worse old.1 new.1)

omit [DecidableEq Client] in
theorem tick_sends {s : RobotBridge K Client} {now v : K} (h : Forward c s now v) :
    ∃ w, sent_in s (s.on_drive_timer c now) = [.twist (guarded_linear c now s v) w] := by
  obtain ⟨command, hcommand, rfl⟩ := Option.map_eq_some_iff.mp h.1
  exact ⟨command.angular, sent_in_append (drive_timer_live c hcommand)⟩

variable [IsStrictOrderedRing K]

omit [DecidableEq Client] in
/-- Waiting makes no reading fresh. -/
theorem fresh_worse {s s' : RobotBridge K Client} {now now' : K} (hnow : now ≤ now') {side : Side}
    (h : WorseStored (s.ranges side) (s'.ranges side)) :
    Worse (s.fresh_ranges c now side) (s'.fresh_ranges c now' side) := by
  unfold RobotBridge.fresh_ranges
  by_cases hfresh' : .fin now' - (s'.ranges side).2 < .fin c.sensor_timeout
  · rw [if_pos hfresh']
    rcases h with hmissing | ⟨hstamp, hworse⟩
    · exact .inl hmissing
    · have hfresh : .fin now - (s.ranges side).2 < .fin c.sensor_timeout := by
        rw [hstamp] at hfresh'
        cases hold : (s.ranges side).2 with
        | nan => rw [hold] at hfresh'; exact absurd hfresh' (Dbl.not_nan_lt _)
        | ninf => rw [hold] at hfresh'; exact absurd hfresh' (Dbl.not_pinf_lt _)
        | pinf => trivial
        | fin stamp =>
          rw [hold, Dbl.fin_sub_fin, Dbl.fin_lt_fin] at hfresh'
          rw [Dbl.fin_sub_fin, Dbl.fin_lt_fin]
          linarith
      rw [if_pos hfresh]
      exact hworse
  · rw [if_neg hfresh']
    exact .inl rfl

theorem braking_distance_mono {v v' : K} (hv : 0 < v) (hle : v ≤ v') (reaction_time deceleration : K) :
    braking_distance v reaction_time deceleration ≤
      braking_distance v' reaction_time deceleration := by
  have hv' : 0 < v' := hv.trans_le hle
  have hreaction : v * max reaction_time 0 ≤ v' * max reaction_time 0 :=
    mul_le_mul_of_nonneg_right hle (le_max_right _ _)
  unfold braking_distance
  rw [if_neg (not_le.mpr hv), if_neg (not_le.mpr hv')]
  dsimp only
  by_cases hdec : 0 < deceleration
  · rw [if_pos hdec, if_pos hdec]
    have hbrake : v * v / (2.0 * deceleration) ≤ v' * v' / (2.0 * deceleration) := by
      have hsquare : v * v ≤ v' * v' := mul_self_le_mul_self hv.le hle
      exact div_le_div_of_nonneg_right hsquare (mul_nonneg (by norm_num) hdec.le)
    exact add_le_add hreaction hbrake
  · rw [if_neg hdec, if_neg hdec]
    exact hreaction

/-- The stop distance grows with the speed. -/
theorem tick_stop_distance_mono (hstop : 0 < c.stop_distance) {v v' : K} (hv : 0 < v)
    (hle : v ≤ v') :
    RobotBridge.tick_stop_distance c v ≤ RobotBridge.tick_stop_distance c v' := by
  rw [tick_stop_distance_eq c hstop, tick_stop_distance_eq c hstop]
  apply min_le_min_right
  unfold documented_stop_distance
  have hbraking := braking_distance_mono hv hle c.reaction_time c.deceleration
  linarith

omit [DecidableEq Client] in
theorem holds_back_iff (hstop : 0 < c.stop_distance) (hrequire : c.require_ultrasonic = true)
    {s : RobotBridge K Client} {now v : K} (h : Forward c s now v) :
    HoldsBack c s now v ↔
      Near (s.fresh_ranges c now) (RobotBridge.tick_stop_distance c v) ∨
        Missing (s.fresh_ranges c now) := by
  have hguard := guard_command_forward h.2 (s.fresh_ranges c now)
    (tick_stop_distance_pos c hstop v) c.require_ultrasonic
  rw [hrequire, eq_self, true_and] at hguard
  obtain ⟨w, hsent⟩ := tick_sends c h
  have hheld : HoldsBack c s now v ↔ guarded_linear c now s v < v := by
    constructor
    · rintro ⟨-, u, w', hu, hlt⟩
      rw [hsent] at hu
      obtain ⟨rfl, -⟩ := Message.twist.inj (List.cons.inj hu).1
      exact hlt
    · exact fun hlt => ⟨h, _, w, hsent, hlt⟩
  rw [hheld]
  unfold guarded_linear
  rw [hrequire]
  rcases guard_command_cases v (s.fresh_ranges c now) (RobotBridge.tick_stop_distance c v) true
    with hpass | ⟨blocking, hcut⟩
  · rw [hpass] at hguard ⊢
    refine iff_of_false (lt_irrefl v) fun hblocked => ?_
    exact absurd (hguard.mpr hblocked) (not_le.mpr h.2)
  · rw [hcut] at hguard ⊢
    exact iff_of_true ((min_le_right v 0).trans_lt h.2) (hguard.mp (min_le_right v 0))

omit [DecidableEq Client] in
/-- Nothing that got worse lets a faster command pass. -/
theorem HoldsBack.mono (hstop : 0 < c.stop_distance) (hrequire : c.require_ultrasonic = true)
    {s s' : RobotBridge K Client} {now now' v v' : K} (h : HoldsBack c s now v)
    (hnow : now ≤ now') (hle : v ≤ v')
    (hworse : ∀ side, WorseStored (s.ranges side) (s'.ranges side))
    (hforward : Forward c s' now' v') : HoldsBack c s' now' v' := by
  rw [holds_back_iff c hstop hrequire hforward]
  apply blocked_of_worse fun side => fresh_worse c hnow (hworse side)
  refine ((holds_back_iff c hstop hrequire h.1).mp h).imp_left fun hnear => ?_
  exact hnear.mono (tick_stop_distance_mono c hstop h.1.2 hle)

/-- A forward command that is held back is held back at any higher speed, with readings that
are smaller, missing or NaN, and at every later instant until a new `Range` arrives. A tick
sends the command as it is or cut off at zero, and a backward one as it is. -/
theorem guard_only_stricter [FloorRing K] (float : V → FloatResult K)
    (hstop : 0 < c.stop_distance) (hrequire : c.require_ultrasonic = true) :
    (∀ (s s' : RobotBridge K Client) (now v v' : K), HoldsBack c s now v →
      s'.ranges = s.ranges → Forward c s' now v' → v ≤ v' → HoldsBack c s' now v') ∧
    (∀ (s s' : RobotBridge K Client) (now v : K), HoldsBack c s now v →
      (∀ side, WorseStored (s.ranges side) (s'.ranges side)) → Forward c s' now v →
      HoldsBack c s' now v) ∧
    (∀ (m m' : Node K Client) (es : List (Event K Client V)) (now now' v : K),
      HoldsBack c m.bridge now v → Run (next c float) m es m' →
      (∀ e ∈ es, ∀ side range, e.op ≠ .on_range side range) → now ≤ now' →
      Forward c m'.bridge now' v → HoldsBack c m'.bridge now' v) ∧
    (∀ (s : RobotBridge K Client) (now : K) (command : Command K),
      s.live_command c now = some command →
      ∃ u, sent_in s (s.on_drive_timer c now) = [.twist u command.angular] ∧
        (u = command.linear ∨ u = min command.linear 0) ∧
        (command.linear ≤ 0 → u = command.linear)) := by
  have hsame : ∀ stored : Option (Dbl K) × Dbl K, WorseStored stored stored := by
    rintro ⟨reading, stamp⟩
    by_cases hmissing : is_missing reading = true
    · exact .inl hmissing
    obtain ⟨d, rfl, hnan⟩ := (is_missing_false reading).mp (Bool.eq_false_iff.mpr hmissing)
    exact .inr ⟨rfl, .inr ⟨d, d, rfl, rfl, Dbl.le_refl_of_not_nan hnan⟩⟩
  refine ⟨?_, ?_, ?_, ?_⟩
  · intro s s' now v v' h hranges hforward hle
    exact h.mono c hstop hrequire (le_refl now) hle (fun side => hranges ▸ hsame _) hforward
  · intro s s' now v h hworse hforward
    exact h.mono c hstop hrequire (le_refl now) (le_refl v) hworse hforward
  · intro m m' es now now' v h hrun hquiet hnow hforward
    have hranges : m'.bridge.ranges = m.bridge.ranges := by
      clear hforward
      induction hrun with
      | nil => rfl
      | snoc _ hn ih =>
        obtain ⟨-, rfl⟩ := hn
        have hlast := hquiet _ (List.mem_append_right _ List.mem_cons_self)
        exact (perform_ranges c float _ _ hlast).trans
          (ih fun e he => hquiet e (List.mem_append_left _ he))
    exact h.mono c hstop hrequire hnow (le_refl v) (fun side => hranges ▸ hsame _) hforward
  · intro s now command hlive
    refine ⟨guarded_linear c now s command.linear, sent_in_append (drive_timer_live c hlive), ?_⟩
    unfold guarded_linear
    rcases guard_command_cases command.linear (s.fresh_ranges c now)
      (RobotBridge.tick_stop_distance c command.linear) c.require_ultrasonic with h | ⟨_, h⟩
    · rw [h]
      exact ⟨.inl rfl, fun _ => rfl⟩
    · rw [h]
      exact ⟨.inr rfl, fun hback => min_eq_left hback⟩

end Tick

section Page
variable {K Client : Type} [Field K] [LinearOrder K] [DecidableEq Client]
variable (c : Parameters K)

/-- The obstacle of the guard that `snapshot` asks about a forward speed of 1 m/s. -/
def snapshot_obstacle (now : K) (s : RobotBridge K Client) : Option (Blocking K) :=
  (guard_command 1 (s.fresh_ranges c now) c.stop_distance c.require_ultrasonic).2

omit [DecidableEq Client] in
theorem shown_obstacle [FloorRing K] (now : K) (s : RobotBridge K Client) :
    (s.shown_guard c now).obstacle = ((snapshot_obstacle c now s).or s.guard).isSome := rfl

/-- If the page shows an obstacle at `now`, no live command of the state makes a tick at the
same instant send the robot forward. -/
def PageAgrees (s : RobotBridge K Client) (now : K) : Prop :=
  (snapshot_obstacle c now s).isSome = true →
    ∀ command : Command K, command.time ≤ now → now - command.time < c.command_timeout →
      ∀ u w, .twist u w ∈ sent_in { s with command := some command }
        ({ s with command := some command }.on_drive_timer c now) → u ≤ 0

/-- The cap comes in between: the parameter is above 0.3 m, the nearest reading is below the
parameter but not below 0.3 m, and no required reading is missing. -/
structure CapBetween (s : RobotBridge K Client) (now : K) : Prop where
  above : 0.3 < c.stop_distance
  near : Near (s.fresh_ranges c now) c.stop_distance
  far : ¬ Near (s.fresh_ranges c now) 0.3
  heard : ¬ (c.require_ultrasonic = true ∧ Missing (s.fresh_ranges c now))

variable [IsStrictOrderedRing K]

omit [DecidableEq Client] in
/-- A forward speed is held back for what the page shows unless the cap is in between. -/
theorem guarded_shown (hstop : 0 < c.stop_distance) {s : RobotBridge K Client} {now v : K}
    (hv : 0 < v) (hshown : (snapshot_obstacle c now s).isSome = true)
    (hcap : ¬ CapBetween c s now) : guarded_linear c now s v ≤ 0 := by
  unfold guarded_linear
  rw [guard_command_forward hv _ (tick_stop_distance_pos c hstop v)]
  by_cases hmissing : c.require_ultrasonic = true ∧ Missing (s.fresh_ranges c now)
  · exact .inr hmissing
  have hnear : Near (s.fresh_ranges c now) c.stop_distance :=
    ((guard_command_blocking _ hstop _).mp hshown).resolve_right hmissing
  have hdocumented : c.stop_distance ≤ documented_stop_distance c v :=
    le_add_of_nonneg_right (braking_distance_nonneg v c.reaction_time c.deceleration)
  left
  rw [tick_stop_distance_eq c hstop, near_min (hnear.mono hdocumented)]
  by_cases habove : 0.3 < c.stop_distance
  · by_contra hfar
    exact hcap ⟨habove, hnear, hfar, hmissing⟩
  · exact hnear.mono (not_lt.mp habove)

omit [DecidableEq Client] in
/-- With the cap in between no forward speed is held back. -/
theorem guarded_capped {s : RobotBridge K Client} {now v : K} (hv : 0 < v)
    (h : CapBetween c s now) : ¬ guarded_linear c now s v ≤ 0 := by
  have hstop : 0 < c.stop_distance := lt_trans (by norm_num) h.above
  unfold guarded_linear
  rw [guard_command_forward hv _ (tick_stop_distance_pos c hstop v)]
  rintro (hnear | hmissing)
  · rw [tick_stop_distance_eq c hstop] at hnear
    exact h.far (hnear.mono (min_le_right _ _))
  · exact h.heard hmissing

omit [DecidableEq Client] in
/-- The page and the tick agree exactly when no command can be live or the cap does not come
in between. -/
theorem page_agrees_iff (s : RobotBridge K Client) (now : K) :
    PageAgrees c s now ↔ c.command_timeout ≤ 0 ∨ ¬ CapBetween c s now := by
  have hsent : ∀ command : Command K, now - command.time < c.command_timeout →
      sent_in { s with command := some command }
        ({ s with command := some command }.on_drive_timer c now) =
        [.twist (guarded_linear c now s command.linear) command.angular] := by
    intro command hyoung
    have hlive : { s with command := some command }.live_command c now = some command := by
      unfold RobotBridge.live_command
      rw [Option.filter_some, decide_eq_false (not_le.mpr hyoung)]
      rfl
    exact sent_in_append (drive_timer_live c hlive)
  constructor
  · intro h
    by_contra hnot
    obtain ⟨htimeout, hcap⟩ := not_or.mp hnot
    have hcap := not_not.mp hcap
    have hshown : (snapshot_obstacle c now s).isSome = true :=
      (guard_command_blocking _ (lt_trans (by norm_num) hcap.above) _).mpr (.inl hcap.near)
    have hyoung : now - now < c.command_timeout := by
      rw [sub_self]
      exact not_le.mp htimeout
    have hle := h hshown ⟨1, 0, now⟩ (le_refl now) hyoung _ 0
      (by rw [hsent ⟨1, 0, now⟩ hyoung]; exact List.mem_singleton_self _)
    exact guarded_capped c zero_lt_one hcap hle
  · intro h hshown command htime hyoung u w hmem
    rw [hsent command hyoung] at hmem
    obtain ⟨rfl, -⟩ := Message.twist.inj (List.mem_singleton.mp hmem)
    by_cases hv : 0 < command.linear
    · have hstop : 0 < c.stop_distance := by
        by_contra hoff
        unfold snapshot_obstacle guard_command at hshown
        rw [if_pos (not_lt.mp hoff)] at hshown
        cases hshown
      refine guarded_shown c hstop hv hshown (h.resolve_left ?_)
      apply not_le.mpr
      linarith
    · exact (guard_command_le _ _ _ _).trans (not_lt.mp hv)

end Page

section Examples

/-- Both sides report 0.28 m, then "phone" drives forward at 100 %. -/
def close_by : List Call :=
  [⟨1 / 10, .on_range .left (.fin 0.28)⟩, ⟨1 / 10, .on_range .right (.fin 0.28)⟩,
    ⟨1 / 5, .drive "phone" (.fin 1) (.fin 0) (.fin 1)⟩]

theorem close_by_held : HoldsBack web_controller_yaml (reached close_by).bridge tick.now 0.4 := by
  refine ⟨⟨by decide +kernel, by decide +kernel⟩, 0, 0, by decide +kernel, by decide +kernel⟩

/-- Full turbo is held back where 100 % is. -/
theorem close_by_held_turbo :
    HoldsBack web_controller_yaml
      { (reached close_by).bridge with command := some ⟨1.2, 0, 1 / 5⟩ } tick.now 1.2 :=
  (guard_only_stricter (V := Dbl Rat) web_controller_yaml float_of (by decide +kernel) rfl).1
    (reached close_by).bridge _ tick.now 0.4 1.2 close_by_held rfl
    ⟨by decide +kernel, by decide +kernel⟩ (by decide +kernel)

/-- A stop distance of 0.25 m is below the cap. -/
theorem page_agrees_yaml : PageAgrees web_controller_yaml (reached close_by).bridge tick.now :=
  (page_agrees_iff web_controller_yaml (reached close_by).bridge tick.now).mpr
    (.inr fun h => absurd h.above (by decide +kernel))

/-- The cap of the tick is not in `obstacle_stop_distance` of the page: with 0.5 m, and 0.4 m
on both sides, the page shows an obstacle while the tick sends 0.1 m/s. -/
theorem page_disagrees :
    ∃ (c : Parameters Rat) (es : List Call) (now : Rat),
      Run (next c float_of) (start c 0) es (after c float_of (start c 0) es) ∧
      ¬ PageAgrees c (after c float_of (start c 0) es).bridge now := by
  refine ⟨{ web_controller_yaml with stop_distance := 0.5 },
    [⟨1 / 10, .on_range .left (.fin 0.4)⟩, ⟨1 / 10, .on_range .right (.fin 0.4)⟩], 1 / 5,
    run_after _ _ _ _ (by decide +kernel), fun h => ?_⟩
  have hle := h (by decide +kernel) ⟨0.1, 0, 1 / 5⟩ (by decide +kernel) (by decide +kernel) 0.1 0
    (by decide +kernel)
  exact absurd hle (by decide +kernel)

end Examples

end IotRobot.Web
