import IotRobot.Lib.Doubles
import IotRobot.Lib.Programs
import IotRobot.Web.Runs

/-!
# The snapshot in doubles

What `snapshot` makes of the bridge's numbers when every operation rounds to a double and may
overflow. `fl` is the double that an exact result rounds to; without rounding this is the
snapshot of the telemetry.
-/

namespace IotRobot.Web

open Lib

set_option autoImplicit false

/-- What a conversion, a division or a missing value can raise. -/
inductive FloatError where
  | ZeroDivisionError
  | TypeError
  | OverflowError
  | ValueError

section Operations
variable {K : Type} [Field K] [LinearOrder K] [FloorRing K] (fl : K → Dbl K)

def float_div (a b : Dbl K) : Except FloatError (Dbl K) :=
  match Dbl.div a b with
  | none => .error .ZeroDivisionError
  | some quotient => .ok (rounded fl quotient)

omit [FloorRing K] in
theorem float_div_zero (d : Dbl K) : float_div fl d (.fin 0) = .error .ZeroDivisionError := by
  unfold float_div Dbl.div
  dsimp only
  rw [if_pos rfl]

omit [FloorRing K] in
theorem float_div_fin (d : Dbl K) {divisor : K} (h : divisor ≠ 0) :
    float_div fl d (.fin divisor) = .ok (rounded fl (d.scale divisor⁻¹)) := by
  unfold float_div Dbl.div
  dsimp only
  rw [if_neg h]

/-- `clamp` of Python on doubles; a NaN becomes the upper bound. -/
def float_clamp (value low high : Dbl K) : Dbl K := Dbl.maximum low (Dbl.minimum high value)

/-- `round(value, digits)`. -/
def float_round (digits : Nat) (value : Dbl K) : Except FloatError (Dbl K) :=
  match value with
  | .fin x =>
    match fl (round_digits digits x) with
    | .fin y => .ok (.fin y)
    | _ => .error .OverflowError
  | value => .ok value

/-- `round(value)`. -/
def float_round_int (value : Dbl K) : Except FloatError Int :=
  match value with
  | .nan => .error .ValueError
  | .fin x => .ok (round_even x)
  | _ => .error .OverflowError

def float_number (digits : Nat) (value : Option (Dbl K)) : Except FloatError (Option (Dbl K)) :=
  match value with
  | some (.fin x) => some <$> float_round fl digits (.fin x)
  | _ => .ok none

def float_classify_range (distance : Option (Dbl K)) (warn_distance danger_distance : K) :
    Except FloatError (Level × Option (Dbl K)) :=
  match distance with
  | none => .ok (.NO_DATA, none)
  | some d =>
    if d.isNaN then .ok (.NO_DATA, none)
    else do
      let level :=
        if .fin warn_distance ≤ d then Level.GREEN
        else if .fin danger_distance ≤ d then .YELLOW
        else .RED
      let fraction ←
        if 0 < warn_distance then
          (float_clamp · (.fin 0) (.fin 1)) <$> float_div fl d (.fin warn_distance)
        else pure (.fin 1)
      let span := rounded fl (fl SLOWEST_BLINK - fl FASTEST_BLINK)
      let period := rounded fl (fl FASTEST_BLINK + rounded fl (fraction * span))
      return (level, some (← float_round fl 3 period))

end Operations

def by_side {α : Type} (left right : α) : Side → α
  | .left => left
  | .right => right

theorem by_side_self {α : Type} (f : Side → α) : by_side (f .left) (f .right) = f := by
  funext side
  cases side <;> rfl

/-- What `snapshot` reads. -/
structure Dashboard (K Client : Type) where
  driver_lock : DriverLock K Client
  published : Option (Dbl K × Dbl K)
  guard : Option (Blocking K)
  estop : Bool
  gizmo : Dbl K × Dbl K
  ranges : Side → Option (Dbl K) × Dbl K
  odom : (Dbl K × Dbl K) × Dbl K
  battery : Option (Dbl K) × Dbl K
  person_status : Option String × Dbl K
  follower_ready : Bool
  detector_ready : Bool
  image_time : Dbl K

namespace Dashboard
variable {K Client : Type} [Field K] [LinearOrder K] [FloorRing K] [DecidableEq Client]
variable (fl : K → Dbl K) (c : Parameters K) (now : K)

def fresh_ranges (d : Dashboard K Client) (side : Side) : Option (Dbl K) :=
  if .fin now - (d.ranges side).2 < .fin c.sensor_timeout then (d.ranges side).1 else none

def shown_distance (distance : Option (Dbl K)) : Except FloatError (ShownDistance (Dbl K)) :=
  if distance = some .pinf then .ok .clear else .number <$> float_number fl 3 distance

def shown_ultrasonic (distance : Option (Dbl K)) : Except FloatError (Ultrasonic (Dbl K)) := do
  let light ← float_classify_range fl distance c.warn_distance c.danger_distance
  let shown ← shown_distance fl distance
  return { distance := shown, level := light.1, period := light.2 }

def shown_battery (voltage : Option (Dbl K)) : Except FloatError (ShownBattery (Dbl K)) := do
  let span := rounded fl (.fin c.battery_full - .fin c.battery_empty)
  let shown ← float_number fl 2 voltage
  match voltage with
  | none => .error .TypeError
  | some v =>
    let charge ← float_div fl (rounded fl (v - .fin c.battery_empty)) span
    let percent ← float_round_int (rounded fl (.fin 100.0 * float_clamp charge (.fin 0) (.fin 1)))
    return { voltage := shown, percent := percent }

def shown_pair (pair : Dbl K × Dbl K) : Except FloatError (Option (Dbl K) × Option (Dbl K)) := do
  let first ← float_number fl 3 (some pair.1)
  let second ← float_number fl 3 (some pair.2)
  return (first, second)

def shown_odom (d : Dashboard K Client) : Except FloatError (Option (Option (Dbl K) × Option (Dbl K))) :=
  if .fin now - d.odom.2 < .fin c.sensor_timeout then some <$> shown_pair fl d.odom.1 else .ok none

def fresh_battery (d : Dashboard K Client) : Except FloatError (Option (ShownBattery (Dbl K))) :=
  if .fin now - d.battery.2 < .fin 5.0 then some <$> shown_battery fl c d.battery.1 else .ok none

def shown_command (d : Dashboard K Client) :
    Except FloatError (Option (Option (Dbl K) × Option (Dbl K))) :=
  match d.published with
  | none => .ok none
  | some sent => some <$> shown_pair fl sent

/-- What holds back a forward command, or would. -/
def obstacle (d : Dashboard K Client) : Option (Blocking K) :=
  (guard_command 1 (d.fresh_ranges c now) c.stop_distance c.require_ultrasonic).2.or d.guard

/-- The telemetry shared by every client. -/
def snapshot (d : Dashboard K Client) : Except FloatError (Telemetry (Dbl K) Client) := do
  let left ← shown_ultrasonic fl c (d.fresh_ranges c now .left)
  let right ← shown_ultrasonic fl c (d.fresh_ranges c now .right)
  let odom ← d.shown_odom fl c now
  let battery ← d.fresh_battery fl c now
  let command ← d.shown_command fl
  let distance ← float_number fl 3 ((d.obstacle c now).bind Prod.snd)
  let gizmo ← shown_pair fl d.gizmo
  let video_age ← float_number fl 2 (some (rounded fl (.fin now - d.image_time)))
  return {
    estop := d.estop
    holder := (d.driver_lock.holder now).1
    command := command
    ultrasonic := by_side left right
    guard :=
      { obstacle := (d.obstacle c now).isSome
        blocking := d.guard.isSome
        side := (d.obstacle c now).map Prod.fst
        distance := distance }
    odom := odom
    battery := battery
    person_status := if .fin now - d.person_status.2 < .fin 2.0 then d.person_status.1 else none
    gizmo := gizmo
    video_age := video_age
    follower_ready := d.follower_ready
    detector_ready := d.detector_ready }

end Dashboard

section Exact
variable {K Client : Type} [Field K] [LinearOrder K] [FloorRing K]

def ShownDistance.map {F : Type} (f : K → F) : ShownDistance K → ShownDistance F
  | .clear => .clear
  | .number metres => .number (metres.map f)

def map_pair {F : Type} (f : K → F) (pair : Option K × Option K) : Option F × Option F :=
  (pair.1.map f, pair.2.map f)

def ShownBattery.map {F : Type} (f : K → F) (battery : ShownBattery K) : ShownBattery F where
  voltage := battery.voltage.map f
  percent := battery.percent

def SnapshotError.raised : SnapshotError → FloatError
  | .ZeroDivisionError => .ZeroDivisionError
  | .TypeError => .TypeError

def Telemetry.map {F : Type} (f : K → F) (t : Telemetry K Client) : Telemetry F Client where
  estop := t.estop
  holder := t.holder
  command := t.command.map (map_pair f)
  ultrasonic side :=
    { distance := (t.ultrasonic side).distance.map f
      level := (t.ultrasonic side).level
      period := (t.ultrasonic side).period.map f }
  guard :=
    { obstacle := t.guard.obstacle
      blocking := t.guard.blocking
      side := t.guard.side
      distance := t.guard.distance.map f }
  odom := t.odom.map (map_pair f)
  battery := t.battery.map (ShownBattery.map f)
  person_status := t.person_status
  gizmo := map_pair f t.gizmo
  video_age := t.video_age.map f
  follower_ready := t.follower_ready
  detector_ready := t.detector_ready

/-- A clamped number is within the bounds, a NaN too. -/
theorem float_clamp_between (value : Dbl K) :
    ∃ f : K, float_clamp value (.fin 0) (.fin 1) = .fin f ∧ 0 ≤ f ∧ f ≤ 1 := by
  unfold float_clamp Dbl.minimum Dbl.maximum
  cases value with
  | nan => exact ⟨1, by simp, zero_le_one, le_refl 1⟩
  | ninf => exact ⟨0, by simp, le_refl 0, zero_le_one⟩
  | pinf => exact ⟨1, by simp, zero_le_one, le_refl 1⟩
  | fin x =>
    by_cases hone : x < 1
    · by_cases hzero : 0 < x
      · exact ⟨x, by simp [hone, hzero], hzero.le, hone.le⟩
      · exact ⟨0, by simp [hone, hzero], le_refl 0, zero_le_one⟩
    · exact ⟨1, by simp [hone], zero_le_one, le_refl 1⟩

omit [Field K] [FloorRing K] in
theorem float_clamp_fin (x low high : K) :
    float_clamp (.fin x) (.fin low) (.fin high) = .fin (clamp x low high) := by
  have hmin : Dbl.minimum (.fin high) (.fin x) = .fin (min high x) := by
    unfold Dbl.minimum
    by_cases h : x < high
    · rw [if_pos (Dbl.fin_lt_fin x high |>.mpr h), min_eq_right h.le]
    · rw [if_neg (Dbl.fin_lt_fin x high |>.not.mpr h), min_eq_left (not_lt.mp h)]
  unfold float_clamp clamp Dbl.maximum
  rw [hmin]
  by_cases h : low < min high x
  · rw [if_pos (Dbl.fin_lt_fin _ _ |>.mpr h), max_eq_right h.le]
  · rw [if_neg (Dbl.fin_lt_fin _ _ |>.not.mpr h), max_eq_left (not_lt.mp h)]

theorem float_number_exact (digits : Nat) (value : Option (Dbl K)) :
    float_number .fin digits value = .ok ((number digits value).map .fin) := by
  cases value with
  | none => rfl
  | some d => cases d <;> rfl

theorem shown_pair_exact (pair : Dbl K × Dbl K) :
    Dashboard.shown_pair .fin pair =
      .ok (map_pair .fin (number 3 (some pair.1), number 3 (some pair.2))) := by
  unfold Dashboard.shown_pair
  rw [float_number_exact, float_number_exact]
  rfl

theorem float_classify_range_exact (distance : Option (Dbl K)) (warn_distance danger_distance : K) :
    float_classify_range .fin distance warn_distance danger_distance =
      .ok ((classify_range distance warn_distance danger_distance).map id (·.map .fin)) := by
  unfold float_classify_range classify_range
  cases distance with
  | none => rfl
  | some d =>
    dsimp only
    by_cases hnan : d.isNaN = true
    · rw [if_pos hnan, if_pos hnan]
      rfl
    rw [if_neg hnan, if_neg hnan]
    have hperiod (f : K) : rounded .fin (.fin FASTEST_BLINK + rounded .fin (Dbl.fin f *
        rounded .fin (.fin SLOWEST_BLINK - .fin FASTEST_BLINK))) =
          .fin (FASTEST_BLINK + f * (SLOWEST_BLINK - FASTEST_BLINK)) := by
      rw [Dbl.fin_sub_fin]
      rfl
    by_cases hwarn : 0 < warn_distance
    · have hdiv : float_div .fin d (.fin warn_distance) = .ok (d.scale (1 / warn_distance)) := by
        rw [float_div_fin _ _ hwarn.ne', one_div]
        cases Dbl.scale warn_distance⁻¹ d <;> rfl
      obtain ⟨f, hfraction, -, -⟩ := float_clamp_between (d.scale (1 / warn_distance))
      have hexact : Dbl.maximum (.fin 0) (Dbl.minimum (.fin 1) (d.scale (1 / warn_distance))) = .fin f :=
        hfraction
      have hmap : (float_clamp · (.fin 0) (.fin 1)) <$>
          (Except.ok (d.scale (1 / warn_distance)) : Except FloatError (Dbl K)) = pure (.fin f) :=
        congrArg Except.ok hfraction
      rw [if_pos hwarn, if_pos hwarn, hdiv, hexact, hmap, pure_bind, hperiod]
      rfl
    · rw [if_neg hwarn, if_neg hwarn, pure_bind, hperiod]
      rfl

theorem shown_ultrasonic_exact (c : Parameters K) (distance : Option (Dbl K)) :
    Dashboard.shown_ultrasonic .fin c distance =
      .ok { distance := (shown_ultrasonic c distance).distance.map .fin
            level := (shown_ultrasonic c distance).level
            period := (shown_ultrasonic c distance).period.map .fin } := by
  have hdistance : Dashboard.shown_distance .fin distance =
      .ok ((shown_ultrasonic c distance).distance.map .fin) := by
    unfold Dashboard.shown_distance shown_ultrasonic
    rw [float_number_exact]
    by_cases hclear : distance = some .pinf
    · rw [if_pos hclear]
      dsimp only
      rw [if_pos hclear]
      rfl
    · rw [if_neg hclear]
      dsimp only
      rw [if_neg hclear]
      rfl
  unfold Dashboard.shown_ultrasonic
  rw [float_classify_range_exact, hdistance]
  rfl

theorem shown_battery_exact (c : Parameters K) (voltage : Option K) :
    Dashboard.shown_battery .fin c (voltage.map .fin) =
      ((shown_battery c voltage).map (ShownBattery.map .fin)).mapError SnapshotError.raised := by
  unfold Dashboard.shown_battery shown_battery
  rw [float_number_exact]
  cases voltage with
  | none => rfl
  | some v =>
    dsimp only
    rw [Dbl.fin_sub_fin, rounded_fin]
    by_cases hspan : c.battery_full - c.battery_empty = 0
    · rw [if_pos hspan, hspan]
      simp only [Option.map_some, float_div_zero]
      rfl
    · have hdiv (x : K) : float_div .fin (.fin x) (.fin (c.battery_full - c.battery_empty)) =
          .ok (.fin (x / (c.battery_full - c.battery_empty))) := by
        rw [float_div_fin _ _ hspan, Dbl.scale_fin, mul_comm, ← div_eq_mul_inv, rounded_fin]
      rw [if_neg hspan]
      have hpercent (charge : K) : float_round_int
          (rounded .fin (Dbl.fin 100.0 * float_clamp (.fin charge) (.fin 0) (.fin 1))) =
            .ok (round_even (100.0 * clamp charge 0 1)) := by
        rw [float_clamp_fin]
        rfl
      simp only [Option.map_some, Dbl.fin_sub_fin, rounded_fin, hdiv]
      rw [ok_bind, ok_bind, hpercent]
      rfl

namespace RobotBridge
variable [DecidableEq Client] (c : Parameters K) (now : K) (s : RobotBridge K Client)

/-- The bridge's numbers as doubles. -/
def dashboard : Dashboard K Client where
  driver_lock := s.driver_lock
  published := s.published.map fun sent => (.fin sent.1, .fin sent.2)
  guard := s.guard
  estop := s.estop
  gizmo := (.fin s.gizmo.1, .fin s.gizmo.2)
  ranges := s.ranges
  odom := s.odom
  battery := (s.battery.1.map .fin, s.battery.2)
  person_status := s.person_status
  follower_ready := s.follower_ready
  detector_ready := s.detector_ready
  image_time := s.image_time

omit [DecidableEq Client] in
/-- Without rounding the snapshot is that of the telemetry. -/
theorem dashboard_snapshot :
    s.dashboard.snapshot .fin c now =
      ((s.snapshot c now).1.map (Telemetry.map .fin)).mapError SnapshotError.raised := by
  have hodom : s.dashboard.shown_odom .fin c now =
      .ok ((if .fin now - s.odom.2 < .fin c.sensor_timeout
        then some (number 3 (some s.odom.1.1), number 3 (some s.odom.1.2))
        else none).map (map_pair .fin)) := by
    by_cases hfresh : Dbl.fin now - s.odom.2 < .fin c.sensor_timeout
    · rw [if_pos hfresh]
      refine (if_pos hfresh).trans ?_
      rw [shown_pair_exact]
      rfl
    · rw [if_neg hfresh]
      exact if_neg hfresh
  have hbattery : s.dashboard.fresh_battery .fin c now =
      ((if .fin now - s.battery.2 < .fin 5.0 then (shown_battery c s.battery.1).map some
        else .ok none).map (Option.map (ShownBattery.map .fin))).mapError SnapshotError.raised := by
    by_cases hfresh : Dbl.fin now - s.battery.2 < .fin 5.0
    · rw [if_pos hfresh]
      refine (if_pos hfresh).trans ?_
      change some <$> Dashboard.shown_battery .fin c (s.battery.1.map .fin) = _
      rw [shown_battery_exact]
      cases shown_battery c s.battery.1 <;> rfl
    · rw [if_neg hfresh]
      exact if_neg hfresh
  have hcommand : s.dashboard.shown_command .fin =
      .ok ((s.published.map fun sent => (number 3 (some (.fin sent.1)), number 3 (some (.fin sent.2)))).map
        (map_pair .fin)) := by
    unfold Dashboard.shown_command dashboard
    cases s.published with
    | none => rfl
    | some sent =>
      dsimp only [Option.map_some]
      rw [shown_pair_exact]
      rfl
  have hvideo : rounded .fin (.fin now - s.image_time) = .fin now - s.image_time := by
    cases Dbl.fin now - s.image_time <;> rfl
  unfold Dashboard.snapshot snapshot
  rw [hodom, hbattery, hcommand, shown_ultrasonic_exact, shown_ultrasonic_exact, ok_bind,
    ok_bind, ok_bind]
  dsimp only
  generalize (if Dbl.fin now - s.battery.2 < .fin 5.0 then (shown_battery c s.battery.1).map some
    else .ok none) = battery
  cases battery with
  | error e => rfl
  | ok battery =>
    have hsides := by_side_self fun side =>
      ({ distance := (shown_ultrasonic c (s.dashboard.fresh_ranges c now side)).distance.map .fin
         level := (shown_ultrasonic c (s.dashboard.fresh_ranges c now side)).level
         period := (shown_ultrasonic c (s.dashboard.fresh_ranges c now side)).period.map .fin } :
        Ultrasonic (Dbl K))
    simp only [Except.map, Except.mapError, ok_bind, float_number_exact, shown_pair_exact, hsides]
    have hage : rounded .fin (.fin now - s.dashboard.image_time) = .fin now - s.image_time := hvideo
    rw [hage]
    rfl

end RobotBridge

end Exact

end IotRobot.Web
