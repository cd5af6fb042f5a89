import Mathlib.Tactic.NormNum.OfScientific
import IotRobot.Web.Authority

/-!
# The obstacle guard

`guard_command` holds back a forward command exactly when a reading is below the stop
distance or, with `require_data`, a side has no reading. The drive timer asks it with the
documented stop distance cut off at 0.3 m, so that a fast command is held back for a
reading below 0.3 m only.
-/

namespace IotRobot.Web

open Lib

set_option autoImplicit false

section Guard
variable {K : Type} [Field K] [LinearOrder K]

/-- Some side reads less than `distance`. -/
def Near (distances : Side → Option (Dbl K)) (distance : K) : Prop :=
  ∃ side d, distances side = some d ∧ d < .fin distance

/-- Some side has no reading. -/
def Missing (distances : Side → Option (Dbl K)) : Prop :=
  ∃ side, is_missing (distances side) = true

omit [Field K] [LinearOrder K] in
theorem missing_iff (distances : Side → Option (Dbl K)) :
    Missing distances ↔
      (SIDES.find? fun side => is_missing (distances side)).isSome = true := by
  rw [List.find?_isSome]
  constructor
  · rintro ⟨side, h⟩
    exact ⟨side, mem_SIDES side, h⟩
  · rintro ⟨side, _, h⟩
    exact ⟨side, h⟩

omit [LinearOrder K] [Field K] in
theorem is_missing_false (distance : Option (Dbl K)) :
    is_missing distance = false ↔ ∃ d, distance = some d ∧ d.isNaN = false := by
  cases distance with
  | none => exact ⟨fun h => (by cases h), fun ⟨_, h, _⟩ => (by cases h)⟩
  | some d => exact ⟨fun h => ⟨d, rfl, h⟩, fun ⟨_, h, hd⟩ => Option.some.inj h ▸ hd⟩

omit [LinearOrder K] [Field K] in
theorem mem_readings_of {distances : Side → Option (Dbl K)} {d : Dbl K} {side : Side} :
    (d, side) ∈ readings_of distances ↔ distances side = some d ∧ d.isNaN = false := by
  unfold readings_of
  rw [List.mem_filterMap]
  constructor
  · rintro ⟨other, _, h⟩
    by_cases hm : is_missing (distances other) = true
    · rw [if_pos hm] at h
      cases h
    · rw [if_neg hm] at h
      obtain ⟨b, hb, hnan⟩ := (is_missing_false _).mp (Bool.eq_false_iff.mpr hm)
      rw [hb] at h
      obtain ⟨rfl, rfl⟩ := Prod.mk.inj (Option.some.inj h)
      exact ⟨hb, hnan⟩
  · rintro ⟨h, hnan⟩
    refine ⟨side, mem_SIDES side, ?_⟩
    rw [(is_missing_false _).mpr ⟨d, h, hnan⟩, h]
    rfl

omit [Field K] in
/-- The nearer of two readings is below a distance when one of them is. -/
theorem nearer_lt {a b : Dbl K × Side} (ha : a.1.isNaN = false) (bound : Dbl K) :
    (if nearer b a then b else a).1 < bound ↔ a.1 < bound ∨ b.1 < bound := by
  by_cases h : nearer b a = true
  · rw [if_pos h, or_iff_right_of_imp]
    intro hlt
    unfold nearer at h
    simp only [Bool.or_eq_true, Bool.and_eq_true, decide_eq_true_eq] at h
    rcases h with h | ⟨h, _⟩
    · exact Dbl.lt_trans h hlt
    · rw [h]
      exact hlt
  · rw [if_neg h, or_iff_left_of_imp]
    refine Dbl.lt_of_not_lt ha fun hlt => h ?_
    unfold nearer
    rw [decide_eq_true hlt, Bool.true_or]

omit [Field K] in
theorem least_lt (rest : List (Dbl K × Side)) (bound : Dbl K) :
    ∀ first : Dbl K × Side, first.1.isNaN = false → (∀ r ∈ rest, r.1.isNaN = false) →
      ((rest.foldl (fun least reading => if nearer reading least then reading else least)
        first).1 < bound ↔ first.1 < bound ∨ ∃ r ∈ rest, r.1 < bound) := by
  induction rest with
  | nil =>
    intro first _ _
    exact ⟨.inl, fun h => h.elim id fun ⟨_, hr, _⟩ => absurd hr List.not_mem_nil⟩
  | cons r rest ih =>
    intro first hfirst hrest
    have hr := hrest r List.mem_cons_self
    have hchosen : (if nearer r first then r else first).1.isNaN = false := by
      split
      · exact hr
      · exact hfirst
    rw [List.foldl_cons, ih _ hchosen fun x hx => hrest x (List.mem_cons_of_mem _ hx),
      nearer_lt hfirst, or_assoc]
    simp only [List.mem_cons, exists_eq_or_imp]

omit [Field K] in
/-- The nearest obstacle is below a distance when some reading is. -/
theorem nearest_obstacle_lt (distances : Side → Option (Dbl K)) (distance : K) :
    (∃ side d, nearest_obstacle distances = some (side, d) ∧ d < .fin distance) ↔
      Near distances distance := by
  have hnear : Near distances distance ↔
      ∃ r ∈ readings_of distances, r.1 < .fin distance := by
    constructor
    · rintro ⟨side, d, h, hd⟩
      have hnan : d.isNaN = false := by
        cases d with
        | nan => exact absurd hd (Dbl.not_nan_lt _)
        | _ => rfl
      exact ⟨(d, side), mem_readings_of.mpr ⟨h, hnan⟩, hd⟩
    · rintro ⟨⟨d, side⟩, hmem, hd⟩
      exact ⟨side, d, (mem_readings_of.mp hmem).1, hd⟩
  have hnan : ∀ r ∈ readings_of distances, r.1.isNaN = false := by
    rintro ⟨d, side⟩ hmem
    exact (mem_readings_of.mp hmem).2
  rw [hnear]
  unfold nearest_obstacle
  cases hreadings : readings_of distances with
  | nil =>
    constructor
    · rintro ⟨_, _, h, _⟩
      cases h
    · rintro ⟨r, hr, _⟩
      cases hr
  | cons first rest =>
    rw [hreadings] at hnan
    have hleast := least_lt rest (.fin distance) first (hnan first List.mem_cons_self)
      fun r hr => hnan r (List.mem_cons_of_mem _ hr)
    simp only [List.mem_cons, exists_eq_or_imp]
    rw [← hleast]
    constructor
    · rintro ⟨side, d, h, hd⟩
      obtain ⟨-, rfl⟩ := Prod.mk.inj (Option.some.inj h)
      exact hd
    · exact fun hd => ⟨_, _, rfl, hd⟩

omit [Field K] in
theorem least_mem (rest : List (Dbl K × Side)) : ∀ first : Dbl K × Side,
    rest.foldl (fun least reading => if nearer reading least then reading else least) first ∈
      first :: rest := by
  induction rest with
  | nil => exact fun first => List.mem_cons_self
  | cons r rest ih =>
    intro first
    rw [List.foldl_cons]
    rcases List.mem_cons.mp (ih (if nearer r first then r else first)) with h | h
    · rw [h]
      split
      · exact List.mem_cons_of_mem _ List.mem_cons_self
      · exact List.mem_cons_self
    · exact List.mem_cons_of_mem _ (List.mem_cons_of_mem _ h)

omit [Field K] in
theorem nearest_obstacle_reading {distances : Side → Option (Dbl K)} {side : Side} {d : Dbl K}
    (h : nearest_obstacle distances = some (side, d)) : distances side = some d := by
  unfold nearest_obstacle at h
  cases hreadings : readings_of distances with
  | nil =>
    rw [hreadings] at h
    cases h
  | cons first rest =>
    rw [hreadings] at h
    have hmem := least_mem rest first
    rw [← hreadings] at hmem
    obtain ⟨hside, hd⟩ := Prod.mk.inj (Option.some.inj h)
    rw [← hside, ← hd]
    exact (mem_readings_of.mp hmem).1

/-- A distance that holds a command back is the reading of its side. -/
theorem guard_command_reading {linear : K} {distances : Side → Option (Dbl K)} {stop_distance : K}
    {require_data : Bool} {side : Side} {d : Dbl K}
    (h : (guard_command linear distances stop_distance require_data).2 = some (side, some d)) :
    distances side = some d := by
  have hmissing : (guard_missing linear distances require_data).2 ≠ some (side, some d) := by
    unfold guard_missing
    split
    · intro h
      cases h
    · intro h
      cases h
  unfold guard_command at h
  split at h
  · cases h
  · split at h
    next side' d' hnearest =>
      split at h
      · obtain ⟨rfl, hd⟩ := Prod.mk.inj (Option.some.inj h)
        obtain rfl := Option.some.inj hd
        exact nearest_obstacle_reading hnearest
      · exact absurd h hmissing
    · exact absurd h hmissing

/-- Once no reading is near, a missing one that is required holds back a forward command. -/
theorem guard_missing_forward {linear : K} (hforward : 0 < linear)
    (distances : Side → Option (Dbl K)) (require_data : Bool) :
    (guard_missing linear distances require_data).1 ≤ 0 ↔
      require_data = true ∧ Missing distances := by
  unfold guard_missing
  rw [missing_iff]
  cases require_data with
  | false => simp [hforward]
  | true =>
    rw [if_pos rfl]
    cases SIDES.find? fun side => is_missing (distances side) with
    | none => simp [hforward]
    | some side => simp

/-- The guard holds back a forward command exactly for a near reading or, with
`require_data`, a missing one. -/
theorem guard_command_forward {linear : K} (hforward : 0 < linear)
    (distances : Side → Option (Dbl K)) {stop_distance : K} (hstop : 0 < stop_distance)
    (require_data : Bool) :
    (guard_command linear distances stop_distance require_data).1 ≤ 0 ↔
      Near distances stop_distance ∨ (require_data = true ∧ Missing distances) := by
  have hmissing := guard_missing_forward hforward distances require_data
  have hnearest := nearest_obstacle_lt distances stop_distance
  unfold guard_command
  rw [if_neg (not_le.mpr hstop)]
  cases hobstacle : nearest_obstacle distances with
  | none =>
    have hfar : ¬ Near distances stop_distance := by
      rw [← hnearest, hobstacle]
      rintro ⟨_, _, h, _⟩
      cases h
    rw [or_iff_right hfar]
    exact hmissing
  | some obstacle =>
    obtain ⟨side, d⟩ := obstacle
    dsimp only
    by_cases hd : d < .fin stop_distance
    · rw [if_pos hd]
      have hnear := hnearest.mp ⟨side, d, hobstacle, hd⟩
      exact ⟨fun _ => .inl hnear, fun _ => min_le_right _ _⟩
    · rw [if_neg hd]
      have hfar : ¬ Near distances stop_distance := by
        rw [← hnearest, hobstacle]
        rintro ⟨_, _, h, hlt⟩
        obtain ⟨-, rfl⟩ := Prod.mk.inj (Option.some.inj h)
        exact hd hlt
      rw [or_iff_right hfar]
      exact hmissing

/-- The guard never speeds a command up. -/
theorem guard_command_le (linear : K) (distances : Side → Option (Dbl K)) (stop_distance : K)
    (require_data : Bool) :
    (guard_command linear distances stop_distance require_data).1 ≤ linear := by
  have hmissing : (guard_missing linear distances require_data).1 ≤ linear := by
    unfold guard_missing
    split
    · exact min_le_left _ _
    · exact le_refl _
  unfold guard_command
  split
  · exact le_refl _
  · split
    · split
      · exact min_le_left _ _
      · exact hmissing
    · exact hmissing

/-- Without a required reading no forward command passes. -/
theorem guard_command_missing (linear : K) {distances : Side → Option (Dbl K)}
    {stop_distance : K} (hstop : 0 < stop_distance) (h : Missing distances) :
    (guard_command linear distances stop_distance true).1 ≤ 0 := by
  by_cases hforward : 0 < linear
  · exact (guard_command_forward hforward distances hstop true).mpr (.inr ⟨rfl, h⟩)
  · exact (guard_command_le linear distances stop_distance true).trans (not_lt.mp hforward)

end Guard

section Tick
variable {K Client V : Type} [Field K] [LinearOrder K] [FloorRing K] [DecidableEq Client]
variable (c : Parameters K) (float : V → FloatResult K)

/-- The documented stop distance at a commanded speed. -/
def documented_stop_distance (linear : K) : K :=
  c.stop_distance + braking_distance linear c.reaction_time c.deceleration

/-- At `now` the driver commands the forward speed `linear` and a fresh reading is below
the documented stop distance for it. -/
def Approaching (s : RobotBridge K Client) (now linear : K) : Prop :=
  (s.live_command c now).map Command.linear = some linear ∧ 0 < linear ∧
    Near (s.fresh_ranges c now) (documented_stop_distance c linear)

/-- A tick that holds back a forward command as documented. -/
def GuardsTick (m : Node K Client) (e : Event K Client V) (m' : Node K Client) : Prop :=
  e.op = .on_drive_timer → ∀ linear, Approaching c m.bridge e.now linear →
    ∀ v w, .twist v w ∈ sent_in m.bridge m'.bridge → v ≤ 0

/-- A tick for which the code's cap does not matter: an obstacle within the documented
stop distance comes with a reading below the cap or with a required one that is missing. -/
def WithinCap (m : Node K Client) (e : Event K Client V) (_ : Node K Client) : Prop :=
  e.op = .on_drive_timer → ∀ linear, Approaching c m.bridge e.now linear →
    Near (m.bridge.fresh_ranges c e.now) 0.3 ∨
      (c.require_ultrasonic = true ∧ Missing (m.bridge.fresh_ranges c e.now))

omit [FloorRing K] in
/-- The stop distance of a tick is the documented one, cut off at 0.3 m. -/
theorem tick_stop_distance_eq (hstop : 0 < c.stop_distance) (linear : K) :
    RobotBridge.tick_stop_distance c linear =
      min (documented_stop_distance c linear) 0.3 := by
  unfold RobotBridge.tick_stop_distance documented_stop_distance
  dsimp only
  rw [if_pos hstop]

omit [Field K] [FloorRing K] in
theorem near_min {distances : Side → Option (Dbl K)} {a b : K} (ha : Near distances a) :
    Near distances (min a b) ↔ Near distances b := by
  constructor
  · rintro ⟨side, d, h, hd⟩
    exact ⟨side, d, h, ((Dbl.lt_fin_min d a b).mp hd).2⟩
  · intro hb
    rcases le_total a b with hab | hba
    · rw [min_eq_left hab]
      exact ha
    · rw [min_eq_right hba]
      exact hb

variable [IsStrictOrderedRing K]

omit [FloorRing K] in
theorem braking_distance_nonneg (linear reaction_time deceleration : K) :
    0 ≤ braking_distance linear reaction_time deceleration := by
  unfold braking_distance
  split
  · exact le_refl _
  · rename_i h
    have hlinear : 0 ≤ linear := (not_le.mp h).le
    have hreaction : 0 ≤ linear * max reaction_time 0 :=
      mul_nonneg hlinear (le_max_right _ _)
    dsimp only
    split
    · rename_i hdec
      have hbrake : 0 ≤ linear * linear / (2.0 * deceleration) :=
        div_nonneg (mul_self_nonneg linear) (mul_nonneg (by norm_num) hdec.le)
      exact add_nonneg hreaction hbrake
    · exact hreaction

omit [FloorRing K] in
theorem tick_stop_distance_pos (hstop : 0 < c.stop_distance) (linear : K) :
    0 < RobotBridge.tick_stop_distance c linear := by
  rw [tick_stop_distance_eq c hstop]
  exact lt_min (add_pos_of_pos_of_nonneg hstop (braking_distance_nonneg _ _ _)) (by norm_num)

omit [FloorRing K] [DecidableEq Client] in
/-- A forward command towards an obstacle is held back exactly when the cap does not
matter. -/
theorem guarded_approach (hstop : 0 < c.stop_distance) {s : RobotBridge K Client}
    {now linear : K} (h : Approaching c s now linear) :
    guarded_linear c now s linear ≤ 0 ↔
      Near (s.fresh_ranges c now) 0.3 ∨
        (c.require_ultrasonic = true ∧ Missing (s.fresh_ranges c now)) := by
  obtain ⟨_, hforward, hnear⟩ := h
  unfold guarded_linear
  rw [guard_command_forward hforward _ (tick_stop_distance_pos c hstop linear),
    tick_stop_distance_eq c hstop, near_min hnear]

theorem guards_tick_iff (hstop : 0 < c.stop_distance) {m m' : Node K Client}
    {e : Event K Client V} (hn : next c float m e m') :
    GuardsTick c m e m' ↔ WithinCap c m e m' := by
  obtain ⟨_, rfl⟩ := hn
  obtain ⟨now, op⟩ := e
  have hsent : op = .on_drive_timer → ∀ linear, Approaching c m.bridge now linear →
      ∃ w, sent_in m.bridge (perform c float ⟨now, op⟩ m.bridge) =
        [.twist (guarded_linear c now m.bridge linear) w] := by
    rintro rfl linear ⟨hlive, _, _⟩
    obtain ⟨command, hcommand, rfl⟩ := Option.map_eq_some_iff.mp hlive
    exact ⟨command.angular, sent_in_append (drive_timer_live c hcommand)⟩
  constructor
  · intro h hop linear happroach
    obtain ⟨w, hs⟩ := hsent hop linear happroach
    have hv := h hop linear happroach (guarded_linear c now m.bridge linear) w
      (by rw [hs]; exact List.mem_singleton_self _)
    exact (guarded_approach c hstop happroach).mp hv
  · intro h hop linear happroach v w hmem
    obtain ⟨w', hs⟩ := hsent hop linear happroach
    rw [hs] at hmem
    obtain ⟨rfl, _⟩ := Message.twist.inj (List.mem_singleton.mp hmem)
    exact (guarded_approach c hstop happroach).mpr (h hop linear happroach)

/-- No tick without a required reading sends the robot forward. -/
theorem tick_without_data (hrequire : c.require_ultrasonic = true) (hstop : 0 < c.stop_distance)
    {m m' : Node K Client} {e : Event K Client V} (hn : next c float m e m')
    (hmissing : Missing (m.bridge.fresh_ranges c e.now)) {v w : K}
    (hsent : .twist v w ∈ sent_in m.bridge m'.bridge) : v ≤ 0 := by
  obtain ⟨new, hsends, happ⟩ := perform_sends c float e m.bridge
  obtain ⟨_, rfl⟩ := hn
  rw [sent_in_append happ] at hsent
  by_cases hv : v = 0
  · exact hv.le
  · obtain ⟨_, command, _, rfl, _⟩ := nonzero_twist c hsends hsent (.inl hv)
    unfold guarded_linear
    rw [hrequire]
    exact guard_command_missing _ (tick_stop_distance_pos c hstop _) hmissing

/-- In every run, every tick holds back the forward command as documented if and only if
the cap matters at none of them. -/
theorem documented_guard_iff (hstop : 0 < c.stop_distance) (t : K)
    (es : List (Event K Client V)) (m : Node K Client) :
    Run (fun m e m' => next c float m e m' ∧ GuardsTick c m e m') (start c t) es m ↔
      Run (fun m e m' => next c float m e m' ∧ WithinCap c m e m') (start c t) es m :=
  Run.iff_of_steps fun _ _ _ hn => guards_tick_iff c float hstop hn

end Tick

/-- A tick with both sides clear. -/
theorem drive_off_within_cap :
    WithinCap web_controller_yaml (reached drive_off) tick (reached (drive_off ++ [tick])) := by
  rintro _ linear ⟨_, _, side, d, hd, hlt⟩
  have hclear : (reached drive_off).bridge.fresh_ranges web_controller_yaml tick.now side =
      some .pinf := by
    cases side <;> decide +kernel
  change (reached drive_off).bridge.fresh_ranges web_controller_yaml tick.now side = some d at hd
  rw [hclear] at hd
  obtain rfl := Option.some.inj hd
  exact absurd hlt (Dbl.not_pinf_lt _)

theorem documented_guard_clear :
    Run (fun m e m' => next web_controller_yaml float_of m e m' ∧
      GuardsTick web_controller_yaml m e m') (start web_controller_yaml 0)
      (drive_off ++ [tick]) (reached (drive_off ++ [tick])) := by
  refine (documented_guard_iff web_controller_yaml float_of (by decide +kernel) _ _ _).mpr ?_
  have hquiet : ∀ {m m' : Node Rat String} {e : Call}, e.op ≠ .on_drive_timer →
      WithinCap web_controller_yaml m e m' := fun hne hop => absurd hop hne
  exact (((Run.nil.snoc ⟨⟨by decide +kernel, rfl⟩, hquiet (fun h => by cases h)⟩).snoc
    ⟨⟨by decide +kernel, rfl⟩, hquiet (fun h => by cases h)⟩).snoc
    ⟨⟨by decide +kernel, rfl⟩, hquiet (fun h => by cases h)⟩).snoc
    ⟨⟨by decide +kernel, rfl⟩, drive_off_within_cap⟩

/-- Full turbo towards an obstacle half a metre away. -/
def turbo : List Call :=
  [⟨1 / 10, .on_range .left (.fin (1 / 2))⟩, ⟨1 / 10, .on_range .right (.fin (1 / 2))⟩,
    ⟨1 / 5, .drive "phone" (.fin 1) (.fin 0) (.fin 3)⟩]

theorem turbo_approaches :
    Approaching web_controller_yaml (reached turbo).bridge tick.now (6 / 5) := by
  refine ⟨by decide +kernel, by decide +kernel, .left, .fin (1 / 2), by decide +kernel, ?_⟩
  decide +kernel

theorem turbo_sends :
    sent_in (reached turbo).bridge (reached (turbo ++ [tick])).bridge = [.twist (6 / 5) 0] := by
  decide +kernel

/-- The documented stop distance at 1.2 m/s is 0.85 m, but half a metre is not refused. -/
theorem turbo_not_guarded :
    0 < (web_controller_yaml : Parameters Rat).stop_distance ∧
      documented_stop_distance (web_controller_yaml : Parameters Rat) (6 / 5) = 17 / 20 ∧
      Run (next web_controller_yaml float_of) (start web_controller_yaml 0) turbo
        (reached turbo) ∧
      next web_controller_yaml float_of (reached turbo) tick (reached (turbo ++ [tick])) ∧
      ¬ GuardsTick web_controller_yaml (reached turbo) tick (reached (turbo ++ [tick])) := by
  refine ⟨by decide +kernel, by decide +kernel, run_after _ _ _ _ (by decide +kernel),
    ⟨by decide +kernel, rfl⟩, fun h => ?_⟩
  have hle := h rfl (6 / 5) turbo_approaches (6 / 5) 0
    (turbo_sends ▸ List.mem_singleton_self _)
  exact absurd hle (by decide +kernel)

end IotRobot.Web
