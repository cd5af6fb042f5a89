import IotRobot.Web.Effects
import IotRobot.Web.Guard
import IotRobot.Web.Snapshot

/-!
# The telemetry is safe for JSON

Whatever doubles the messages and the bridge's own arithmetic bring, every number of the
telemetry is finite. The only thing that a snapshot rests on is that a battery message younger
than five seconds has a voltage.
-/

namespace IotRobot.Web

open Lib

set_option autoImplicit false

section Safe
variable {K : Type} [Field K] [LinearOrder K] [IsStrictOrderedRing K] [FloorRing K]

omit [Field K] [LinearOrder K] [IsStrictOrderedRing K] [FloorRing K] in
def AllFinite (numbers : List (Dbl K)) : Prop := ∀ x ∈ numbers, x.isFinite = true

omit [Field K] [LinearOrder K] [IsStrictOrderedRing K] [FloorRing K] in
theorem AllFinite.append {first second : List (Dbl K)} (h : AllFinite first) (h' : AllFinite second) :
    AllFinite (first ++ second) := by
  intro x hx
  rcases List.mem_append.mp hx with hx | hx
  · exact h x hx
  · exact h' x hx

omit [Field K] [LinearOrder K] [IsStrictOrderedRing K] [FloorRing K] in
theorem AllFinite.nil : AllFinite ([] : List (Dbl K)) := fun _ h => absurd h List.not_mem_nil

/-- Rounding a finite double to decimals does not overflow. -/
theorem float_round_returns (digits : Nat) {x : K} (h : |x| ≤ (largest_double : Int)) :
    Returns (fun y => y = .fin (nearest_double (round_digits digits x)))
      (float_round to_double digits (.fin x)) := by
  unfold float_round
  dsimp only
  rw [to_double_fin (abs_round_digits_le digits h)]
  exact .ok rfl

theorem float_number_returns (digits : Nat) {value : Option (Dbl K)}
    (h : ∀ d, value = some d → d.Representable) :
    Returns (fun shown => AllFinite shown.toList) (float_number to_double digits value) := by
  unfold float_number
  split
  next x =>
    refine (float_round_returns digits ((h _ rfl) x rfl).abs_le).map ?_
    rintro y rfl z hz
    rw [List.mem_singleton.mp hz]
    rfl
  next => exact .ok .nil

theorem to_double_one : to_double (1 : K) = .fin 1 := by
  have hone : IsDouble ((1 : Int) : K) := isDouble_intCast (by norm_num)
  rw [Int.cast_one] at hone
  exact hone.to_double

theorem tiny_le : (2 : K) ^ (-52 : Int) ≤ 1 / 1000000 := by norm_num

/-- Before it is rounded to milliseconds the period is hardly outside its range. -/
theorem blink_near {f : K} (hf : 0 ≤ f) (hf' : f ≤ 1) : ∃ period : K,
    rounded to_double (to_double FASTEST_BLINK + rounded to_double (.fin f *
      rounded to_double (to_double SLOWEST_BLINK - to_double FASTEST_BLINK))) = .fin period ∧
    1999 / 10000 ≤ period ∧ period ≤ 10001 / 10000 := by
  have htiny := tiny_le (K := K)
  obtain ⟨fast, hfast, hnear⟩ := to_double_near (x := (FASTEST_BLINK : K)) (by
    unfold FASTEST_BLINK
    norm_num [abs_of_pos])
  obtain ⟨hlow, hhigh⟩ := abs_le.mp (hnear.trans htiny)
  unfold FASTEST_BLINK at hlow hhigh
  have hslow : to_double (SLOWEST_BLINK : K) = .fin 1 := to_double_one
  rw [hfast, hslow, Dbl.fin_sub_fin, rounded_fin]
  obtain ⟨span, hspan, hspan_near⟩ := to_double_near (x := 1 - fast) (by
    rw [abs_le]
    constructor <;> norm_num at hlow hhigh ⊢ <;> linarith)
  obtain ⟨hspan_low, hspan_high⟩ := abs_le.mp (hspan_near.trans htiny)
  rw [hspan, Dbl.fin_mul_fin, rounded_fin]
  norm_num at hlow hhigh
  have hspan_pos : 0 ≤ span := by linarith
  have hproduct : f * span ≤ span := mul_le_of_le_one_left hspan_pos hf'
  have hproduct_nonneg : 0 ≤ f * span := mul_nonneg hf hspan_pos
  obtain ⟨part, hpart, hpart_near⟩ := to_double_near (x := f * span) (by
    rw [abs_of_nonneg hproduct_nonneg]
    linarith)
  obtain ⟨hpart_low, hpart_high⟩ := abs_le.mp (hpart_near.trans htiny)
  rw [hpart, Dbl.fin_add_fin, rounded_fin]
  obtain ⟨period, hperiod, hperiod_near⟩ := to_double_near (x := fast + part) (by
    rw [abs_le]
    constructor <;> linarith)
  obtain ⟨hperiod_low, hperiod_high⟩ := abs_le.mp (hperiod_near.trans htiny)
  exact ⟨period, hperiod, by linarith, by linarith⟩

/-- A blink period lies between the doubles for 0.2 and 1. -/
def BlinkPeriod (period : Dbl K) : Prop :=
  ∃ p : K, period = .fin p ∧ nearest_double 0.2 ≤ p ∧ p ≤ 1

/-- Rounded to milliseconds the period is within its range. -/
theorem blink_between {period : K} (hlow : 1999 / 10000 ≤ period) (hhigh : period ≤ 10001 / 10000) :
    Returns BlinkPeriod (float_round to_double 3 (.fin period)) := by
  have hsmall : |period| ≤ 2 := by
    rw [abs_of_nonneg (by linarith)]
    linarith
  obtain ⟨_, hround, rfl⟩ := float_round_returns 3 (hsmall.trans two_le_largest_double)
  refine ⟨_, hround, _, rfl, ?_⟩
  -- between 200 and 1000 milliseconds
  obtain ⟨hbelow, habove⟩ := abs_le.mp (round_even_near (period * 10 ^ 3))
  have hseconds : 0.2 ≤ round_digits 3 period ∧ round_digits 3 period ≤ 1 := by
    unfold round_digits
    obtain ⟨ms, hms⟩ : ∃ ms, round_even (period * 10 ^ 3) = ms := ⟨_, rfl⟩
    rw [hms] at hbelow habove ⊢
    have hrange : 199 < ms ∧ ms < 1001 := by
      have hcast : ((199 : Int) : K) < ms ∧ (ms : K) < ((1001 : Int) : K) := by
        rw [Int.cast_ofNat, Int.cast_ofNat]
        constructor <;> linarith
      exact ⟨Int.cast_lt.mp hcast.1, Int.cast_lt.mp hcast.2⟩
    have hlow : ((200 : Int) : K) ≤ ms := Int.cast_le.mpr (by omega)
    have hhigh : (ms : K) ≤ ((1000 : Int) : K) := Int.cast_le.mpr (by omega)
    rw [Int.cast_ofNat] at hlow hhigh
    constructor
    · rw [le_div_iff₀ (by norm_num)]
      norm_num
      exact hlow
    · rw [div_le_iff₀ (by norm_num)]
      norm_num
      exact hhigh
  have hone : nearest_double (1 : K) = 1 :=
    IsDouble.nearest ⟨1, 0, by norm_num, by omega, by omega, by simp⟩
  have hpos : (0 : K) < 0.2 := by norm_num
  refine ⟨nearest_double_mono hpos hseconds.1, ?_⟩
  calc nearest_double (round_digits 3 period) ≤ nearest_double 1 :=
        nearest_double_mono (hpos.trans_le hseconds.1) hseconds.2
    _ = 1 := hone

/-- A missing reading has no light and no period, every other one has both. -/
def LightShown (distance : Option (Dbl K)) (shown : Level × Option (Dbl K)) : Prop :=
  if is_missing distance = true then shown = (.NO_DATA, none)
  else shown.1 ≠ .NO_DATA ∧ ∃ period, shown.2 = some period ∧ BlinkPeriod period

omit [IsStrictOrderedRing K] in
theorem LightShown.missing {distance : Option (Dbl K)} (h : is_missing distance = true) :
    LightShown distance (.NO_DATA, none) := by
  unfold LightShown
  rw [if_pos h]

omit [IsStrictOrderedRing K] in
theorem LightShown.reading {distance : Option (Dbl K)} {level : Level} {period : Dbl K}
    (h : ¬ is_missing distance = true) (hlevel : level ≠ .NO_DATA) (hperiod : BlinkPeriod period) :
    LightShown distance (level, some period) := by
  unfold LightShown
  rw [if_neg h]
  exact ⟨hlevel, period, rfl, hperiod⟩

omit [IsStrictOrderedRing K] in
theorem LightShown.finite {distance : Option (Dbl K)} {shown : Level × Option (Dbl K)}
    (h : LightShown distance shown) : AllFinite shown.2.toList := by
  unfold LightShown at h
  split at h
  · rw [h]
    exact .nil
  · obtain ⟨-, period, hperiod, p, rfl, -⟩ := h
    rw [hperiod]
    intro x hx
    rw [List.mem_singleton.mp hx]
    rfl

omit [IsStrictOrderedRing K] [FloorRing K] in
/-- A division by anything but zero does not raise. -/
theorem float_div_returns (fl : K → Dbl K) (d : Dbl K) {divisor : Dbl K} (h : divisor ≠ .fin 0) :
    Returns (fun _ => True) (float_div fl d divisor) := by
  cases divisor with
  | fin x =>
    rw [float_div_fin fl d fun hx => h (congrArg Dbl.fin hx)]
    exact .ok trivial
  | nan => cases d <;> exact .ok trivial
  | ninf => cases d <;> exact .ok trivial
  | pinf => cases d <;> exact .ok trivial

theorem float_classify_range_returns (distance : Option (Dbl K)) (warn_distance danger_distance : K) :
    Returns (LightShown distance)
      (float_classify_range to_double distance warn_distance danger_distance) := by
  unfold float_classify_range
  cases distance with
  | none => exact .ok (.missing rfl)
  | some d =>
    dsimp only
    by_cases hnan : d.isNaN = true
    · rw [if_pos hnan]
      exact .ok (.missing hnan)
    rw [if_neg hnan]
    have hlevel : (if Dbl.fin warn_distance ≤ d then Level.GREEN
        else if Dbl.fin danger_distance ≤ d then .YELLOW else .RED) ≠ .NO_DATA := by
      intro h
      split at h
      · cases h
      · split at h <;> cases h
    have hperiod {f : K} (hf : 0 ≤ f) (hf' : f ≤ 1) : Returns BlinkPeriod
        (float_round to_double 3 (rounded to_double (to_double FASTEST_BLINK +
          rounded to_double (Dbl.fin f *
            rounded to_double (to_double SLOWEST_BLINK - to_double FASTEST_BLINK))))) := by
      obtain ⟨period, hperiod, hlow, hhigh⟩ := blink_near hf hf'
      rw [hperiod]
      exact blink_between hlow hhigh
    by_cases hwarn : 0 < warn_distance
    · rw [if_pos hwarn]
      have hdivisor : Dbl.fin warn_distance ≠ .fin 0 := fun h => hwarn.ne' (Dbl.fin.inj h)
      have hfraction := (float_div_returns to_double d hdivisor).map
        (Q := fun x : Dbl K => ∃ f : K, x = .fin f ∧ 0 ≤ f ∧ f ≤ 1)
        fun quotient _ => float_clamp_between quotient
      refine hfraction.bind ?_
      rintro _ ⟨f, rfl, hf, hf'⟩
      exact (hperiod hf hf').bind fun period hshown => .ok (.reading hnan hlevel hshown)
    · rw [if_neg hwarn]
      exact (hperiod zero_le_one (le_refl 1)).bind fun period hshown =>
        .ok (.reading hnan hlevel hshown)

/-- Different voltages for full and empty have a span that one can divide by. -/
theorem battery_span_ne {full empty : K} (hfull : IsDouble full) (hempty : IsDouble empty)
    (hne : full ≠ empty) : rounded to_double (Dbl.fin full - Dbl.fin empty) ≠ Dbl.fin 0 := by
  rw [Dbl.fin_sub_fin, rounded_fin]
  unfold to_double
  split
  · intro h
    cases h
  split
  · intro h
    cases h
  · intro h
    exact nearest_double_sub_ne hfull hempty hne (Dbl.fin.inj h)

/-- The percentage is a number whatever the charge. -/
theorem percent_returns (charge : Dbl K) : Returns (fun _ => True)
    (float_round_int (rounded to_double (Dbl.fin 100.0 * float_clamp charge (.fin 0) (.fin 1)))) := by
  obtain ⟨f, hclamp, hf, hf'⟩ := float_clamp_between charge
  have hsmall : |100.0 * f| ≤ (largest_double : Int) := by
    have hhundred := le_largest_double (K := K) (n := 100) (by norm_num)
    rw [Int.cast_ofNat] at hhundred
    rw [abs_of_nonneg (mul_nonneg (by norm_num) hf)]
    refine le_trans ?_ hhundred
    norm_num
    linarith
  rw [hclamp, Dbl.fin_mul_fin, rounded_fin, to_double_fin hsmall]
  exact .ok trivial

section Numbers
variable {F : Type}

def ShownDistance.numbers : ShownDistance F → List F
  | .clear => []
  | .number metres => metres.toList

def Ultrasonic.numbers (u : Ultrasonic F) : List F := u.distance.numbers ++ u.period.toList

def pair_numbers (pair : Option F × Option F) : List F := pair.1.toList ++ pair.2.toList

end Numbers

/-- Every fractional number that a browser is sent. -/
def Telemetry.numbers {F Client : Type} (t : Telemetry F Client) : List F :=
  t.command.toList.flatMap pair_numbers ++
  ((t.ultrasonic .left).numbers ++
  ((t.ultrasonic .right).numbers ++
  (t.guard.distance.toList ++
  (t.odom.toList.flatMap pair_numbers ++
  (t.battery.toList.flatMap (·.voltage.toList) ++
  (pair_numbers t.gizmo ++ t.video_age.toList))))))

section Parts
variable {Client : Type} (c : Parameters K) (now : K)

theorem shown_pair_returns {pair : Dbl K × Dbl K} (h : pair.1.Representable) (h' : pair.2.Representable) :
    Returns (fun shown => AllFinite (pair_numbers shown)) (Dashboard.shown_pair to_double pair) := by
  refine (float_number_returns 3 ?_).bind fun first hfirst =>
    (float_number_returns 3 ?_).bind fun second hsecond => .ok (hfirst.append hsecond)
  · rintro _ ⟨⟩
    exact h
  · rintro _ ⟨⟩
    exact h'

theorem shown_distance_returns {distance : Option (Dbl K)} (h : ∀ d, distance = some d → d.Representable) :
    Returns (fun shown => AllFinite shown.numbers) (Dashboard.shown_distance to_double distance) := by
  unfold Dashboard.shown_distance
  split
  · exact .ok .nil
  · exact (float_number_returns 3 h).map fun _ hshown => hshown

theorem shown_ultrasonic_returns {distance : Option (Dbl K)} (h : ∀ d, distance = some d → d.Representable) :
    Returns (fun u => AllFinite u.numbers ∧ LightShown distance (u.level, u.period))
      (Dashboard.shown_ultrasonic to_double c distance) := by
  refine (float_classify_range_returns distance c.warn_distance c.danger_distance).bind
    fun light hlight => (shown_distance_returns h).bind fun shown hshown => .ok ⟨?_, hlight⟩
  exact hshown.append hlight.finite

theorem shown_battery_returns (hfull : IsDouble c.battery_full) (hempty : IsDouble c.battery_empty)
    (hne : c.battery_full ≠ c.battery_empty) {v : Dbl K} (hv : v.Representable) :
    Returns (fun shown => AllFinite shown.voltage.toList)
      (Dashboard.shown_battery to_double c (some v)) := by
  refine (float_number_returns 2 ?_).bind fun voltage hvoltage => ?_
  · rintro _ ⟨⟩
    exact hv
  refine (float_div_returns to_double _ (battery_span_ne hfull hempty hne)).bind fun charge _ => ?_
  exact (percent_returns charge).bind fun percent _ => .ok hvoltage

end Parts

/-- Every number that the bridge holds is a double. -/
structure Dashboard.Doubles {Client : Type} (d : Dashboard K Client) : Prop where
  published : ∀ sent, d.published = some sent → sent.1.Representable ∧ sent.2.Representable
  guard : ∀ side distance, d.guard = some (side, some distance) → distance.Representable
  gizmo : d.gizmo.1.Representable ∧ d.gizmo.2.Representable
  ranges : ∀ side distance, (d.ranges side).1 = some distance → distance.Representable
  odom : d.odom.1.1.Representable ∧ d.odom.1.2.Representable
  battery : ∀ voltage, d.battery.1 = some voltage → voltage.Representable

section Snapshot
variable {Client : Type} {c : Parameters K} {now : K} {d : Dashboard K Client}

omit [IsStrictOrderedRing K] [FloorRing K] in
theorem fresh_ranges_representable (h : d.Doubles) {side : Side} {distance : Dbl K}
    (hfresh : d.fresh_ranges c now side = some distance) : distance.Representable := by
  unfold Dashboard.fresh_ranges at hfresh
  split at hfresh
  · exact h.ranges side distance hfresh
  · cases hfresh

omit [IsStrictOrderedRing K] [FloorRing K] in
/-- What holds back a forward command is a reading or what the last tick found. -/
theorem obstacle_representable (h : d.Doubles) {distance : Dbl K}
    (hobstacle : (d.obstacle c now).bind Prod.snd = some distance) : distance.Representable := by
  obtain ⟨⟨side, shown⟩, hblocking, hshown⟩ := Option.bind_eq_some_iff.mp hobstacle
  obtain rfl : shown = some distance := hshown
  unfold Dashboard.obstacle at hblocking
  rcases Option.or_eq_some_iff.mp hblocking with hnow | ⟨-, htick⟩
  · exact fresh_ranges_representable h (guard_command_reading hnow)
  · exact h.guard side distance htick

theorem shown_odom_returns (h : d.Doubles) : Returns
    (fun shown => AllFinite (shown.toList.flatMap pair_numbers)) (d.shown_odom to_double c now) := by
  unfold Dashboard.shown_odom
  split
  · exact (shown_pair_returns h.odom.1 h.odom.2).map fun shown hshown => by
      rwa [Option.toList_some, List.flatMap_singleton]
  · exact .ok .nil

theorem shown_command_returns (h : d.Doubles) : Returns
    (fun shown => AllFinite (shown.toList.flatMap pair_numbers)) (d.shown_command to_double) := by
  unfold Dashboard.shown_command
  split
  · exact .ok .nil
  next sent hsent =>
    obtain ⟨hlinear, hangular⟩ := h.published sent hsent
    exact (shown_pair_returns hlinear hangular).map fun shown hshown => by
      rwa [Option.toList_some, List.flatMap_singleton]

theorem fresh_battery_returns (h : d.Doubles) (hfull : IsDouble c.battery_full)
    (hempty : IsDouble c.battery_empty) (hne : c.battery_full ≠ c.battery_empty)
    (hvoltage : Dbl.fin now - d.battery.2 < .fin 5.0 → ∃ voltage, d.battery.1 = some voltage) : Returns
      (fun shown => AllFinite (shown.toList.flatMap (·.voltage.toList)))
      (d.fresh_battery to_double c now) := by
  unfold Dashboard.fresh_battery
  split
  next hfresh =>
    obtain ⟨voltage, hvoltage⟩ := hvoltage hfresh
    rw [hvoltage]
    exact (shown_battery_returns c hfull hempty hne (h.battery voltage hvoltage)).map
      fun shown hshown => by rwa [Option.toList_some, List.flatMap_singleton]
  · exact .ok .nil

/-- A snapshot returns finite numbers and the lights of both sides, as long as a battery
message that is younger than five seconds has a voltage. -/
theorem snapshot_returns (h : d.Doubles) (hfull : IsDouble c.battery_full)
    (hempty : IsDouble c.battery_empty) (hne : c.battery_full ≠ c.battery_empty)
    (hvoltage : Dbl.fin now - d.battery.2 < .fin 5.0 → ∃ voltage, d.battery.1 = some voltage) : Returns
      (fun t => AllFinite t.numbers ∧ ∀ side, LightShown (d.fresh_ranges c now side)
        ((t.ultrasonic side).level, (t.ultrasonic side).period))
      (d.snapshot to_double c now) := by
  refine (shown_ultrasonic_returns c fun _ => fresh_ranges_representable h).bind
    fun left ⟨hleft, hleft_light⟩ => ?_
  refine (shown_ultrasonic_returns c fun _ => fresh_ranges_representable h).bind
    fun right ⟨hright, hright_light⟩ => ?_
  refine (shown_odom_returns h).bind fun odom hodom => ?_
  refine (fresh_battery_returns h hfull hempty hne hvoltage).bind fun battery hbattery => ?_
  refine (shown_command_returns h).bind fun command hcommand => ?_
  refine (float_number_returns 3 fun _ => obstacle_representable h).bind fun distance hdistance => ?_
  refine (shown_pair_returns h.gizmo.1 h.gizmo.2).bind fun gizmo hgizmo => ?_
  refine (float_number_returns 2 ?_).bind fun video_age hvideo_age => .ok ⟨?_, ?_⟩
  · rintro _ ⟨⟩
    exact rounded_representable _
  · exact hcommand.append (hleft.append (hright.append (hdistance.append (hodom.append
      (hbattery.append (hgizmo.append hvideo_age))))))
  · intro side
    cases side with
    | left => exact hleft_light
    | right => exact hright_light

end Snapshot

section Run
variable {Client V : Type} [DecidableEq Client] {c : Parameters K} {float : V → FloatResult K}

/-- Stamps are clock readings or before every one, and a stamped battery message has a voltage. -/
structure Stamped {Client : Type} (s : RobotBridge K Client) : Prop where
  ranges : ∀ side, (s.ranges side).2 = .ninf ∨ ∃ t, (s.ranges side).2 = .fin t
  battery : s.battery.2 = .ninf ∨ ∃ voltage, s.battery.1 = some voltage

omit [LinearOrder K] [IsStrictOrderedRing K] [FloorRing K] [DecidableEq Client] in
theorem stamped_start (t : K) : Stamped (start c t : Node K Client).bridge := by
  unfold start RobotBridge.init
  split
  · exact ⟨fun _ => .inl rfl, .inl rfl⟩
  · exact ⟨fun _ => .inl rfl, .inl rfl⟩

omit [IsStrictOrderedRing K] in
theorem stamped_next {m m' : Node K Client} {e : Event K Client V} (h : next c float m e m')
    (hstamped : Stamped m.bridge) : Stamped m'.bridge := by
  obtain ⟨-, rfl⟩ := h
  obtain ⟨now, op⟩ := e
  refine ⟨fun other => ?_, ?_⟩
  · cases op with
    | on_range side range =>
      dsimp only [perform, RobotBridge.on_range]
      by_cases hside : other = side
      · rw [if_pos hside]
        exact .inr ⟨now, rfl⟩
      · rw [if_neg hside]
        exact hstamped.ranges other
    | _ =>
      rw [perform_ranges]
      · exact hstamped.ranges other
      · intro side range h
        cases h
  · cases op with
    | on_battery voltage =>
      dsimp only [perform, RobotBridge.on_battery]
      split
      next v =>
        split
        · exact .inr ⟨v, rfl⟩
        · exact hstamped.battery
      · exact hstamped.battery
    | _ =>
      rw [perform_battery]
      · exact hstamped.battery
      · intro voltage h
        cases h

/-- The sensors' data is what the messages brought. What the bridge computes itself may be any
doubles. -/
structure Dashboard.Mirrors {Client : Type} (d : Dashboard K Client) (s : RobotBridge K Client) :
    Prop where
  ranges : d.ranges = s.ranges
  odom : d.odom = s.odom
  battery : d.battery = (s.battery.1.map .fin, s.battery.2)
  doubles : d.Doubles

/-- The side has no reading, a NaN or one that is `sensor_timeout` old. -/
def Unread (c : Parameters K) (now : K) (s : RobotBridge K Client) (side : Side) : Prop :=
  (s.ranges side).1 = none ∨ (s.ranges side).1 = some .nan ∨
    Dbl.fin c.sensor_timeout ≤ Dbl.fin now - (s.ranges side).2

omit [IsStrictOrderedRing K] [FloorRing K] [DecidableEq Client] in
theorem unread_iff {s : RobotBridge K Client} {d : Dashboard K Client} (h : Stamped s)
    (hranges : d.ranges = s.ranges) (now : K) (side : Side) :
    is_missing (d.fresh_ranges c now side) = true ↔ Unread c now s side := by
  have hold : Dbl.fin c.sensor_timeout ≤ Dbl.fin now - (s.ranges side).2 ↔
      ¬ Dbl.fin now - (s.ranges side).2 < Dbl.fin c.sensor_timeout := by
    rcases h.ranges side with hnever | ⟨t, ht⟩
    · rw [hnever, Dbl.fin_sub_ninf]
      exact iff_of_true (Dbl.fin_le_pinf _) (Dbl.not_pinf_lt _)
    · rw [ht, Dbl.fin_sub_fin, Dbl.fin_le_fin, Dbl.fin_lt_fin, not_lt]
  unfold Unread Dashboard.fresh_ranges
  rw [hold, hranges]
  by_cases hfresh : Dbl.fin now - (s.ranges side).2 < Dbl.fin c.sensor_timeout
  · rw [if_pos hfresh]
    cases (s.ranges side).1 with
    | none => exact iff_of_true rfl (.inl rfl)
    | some distance =>
      cases distance with
      | nan => exact iff_of_true rfl (.inr (.inl rfl))
      | ninf | fin | pinf =>
        refine iff_of_false Bool.false_ne_true ?_
        rintro (hnone | hnan | hstale)
        · cases hnone
        · cases hnan
        · exact hstale hfresh
  · rw [if_neg hfresh]
    exact iff_of_true rfl (.inr (.inr hfresh))

/-- The telemetry is safe for JSON in every run and at every time, whatever doubles the messages
bring, if the battery's full and empty voltages are different doubles. -/
theorem telemetry_json_safe (hfull : IsDouble c.battery_full) (hempty : IsDouble c.battery_empty)
    (hne : c.battery_full ≠ c.battery_empty) {t : K} {es : List (Event K Client V)}
    {m : Node K Client} (h : Run (next c float) (start c t) es m) {d : Dashboard K Client}
    (hd : d.Mirrors m.bridge) (now : K) :
    ∃ telemetry, d.snapshot to_double c now = .ok telemetry ∧
      (∀ x ∈ telemetry.numbers, x.isFinite = true) ∧
      ∀ side,
        (Unread c now m.bridge side → (telemetry.ultrasonic side).level = .NO_DATA ∧
          (telemetry.ultrasonic side).period = none) ∧
        (¬ Unread c now m.bridge side → (telemetry.ultrasonic side).level ≠ .NO_DATA ∧
          ∃ period, (telemetry.ultrasonic side).period = some period ∧ BlinkPeriod period) := by
  have hstamped : Stamped m.bridge :=
    h.invariant (fun m => Stamped m.bridge) (stamped_start t) fun _ _ _ hm hnext => stamped_next hnext hm
  have hvoltage : Dbl.fin now - d.battery.2 < .fin 5.0 → ∃ voltage, d.battery.1 = some voltage := by
    rw [hd.battery]
    intro hfresh
    rcases hstamped.battery with hnever | ⟨voltage, hsome⟩
    · dsimp only at hfresh
      rw [hnever, Dbl.fin_sub_ninf] at hfresh
      exact absurd hfresh (Dbl.not_pinf_lt _)
    · exact ⟨.fin voltage, congrArg (Option.map Dbl.fin) hsome⟩
  obtain ⟨telemetry, hsnapshot, hfinite, hlights⟩ :=
    snapshot_returns hd.doubles hfull hempty hne hvoltage
  refine ⟨telemetry, hsnapshot, hfinite, fun side => ?_⟩
  have hunread := unread_iff (c := c) hstamped hd.ranges now side
  have hlight := hlights side
  unfold LightShown at hlight
  constructor
  · intro hmissing
    rw [if_pos (hunread.mpr hmissing)] at hlight
    exact Prod.mk.inj hlight
  · intro hread
    rwa [if_neg (hunread.not.mpr hread)] at hlight

end Run

end Safe

section Examples

/-- A NaN on the left, "closer than measurable" on the right, an odometry beyond every number and
a battery at 24 V. -/
def odd_messages : List (Event Rat String (Dbl Rat)) :=
  [⟨1, .on_range .left .nan⟩, ⟨1, .on_range .right .ninf⟩, ⟨1, .on_odom .pinf .nan⟩,
    ⟨1, .on_battery (.fin 24)⟩]

/-- A full battery has 25.5 V, which is a double. -/
abbrev half_volts : Parameters Rat := { web_controller_yaml with battery_full := 25.5 }

abbrev odd_node : Node Rat String := after half_volts FloatResult.value (start half_volts 0) odd_messages

theorem whole_representable {n : Int} (h : |n| < 2 ^ 53) : (Dbl.fin (n : Rat)).Representable := by
  rintro _ ⟨⟩
  exact isDouble_intCast h

theorem odd_doubles : odd_node.bridge.dashboard.Doubles where
  published := by
    intro sent h
    cases h
  guard := by
    intro side distance h
    cases h
  gizmo := ⟨whole_representable (n := 0) (by decide), whole_representable (n := 0) (by decide)⟩
  ranges := by
    intro side distance h
    cases side with
    | left =>
      obtain rfl := Option.some.inj h
      intro x hx
      cases hx
    | right =>
      obtain rfl := Option.some.inj h
      exact whole_representable (n := 0) (by decide)
  odom := by
    constructor
    · intro x hx
      cases hx
    · intro x hx
      cases hx
  battery := by
    intro voltage h
    obtain rfl : Dbl.fin 24 = voltage := Option.some.inj h
    exact whole_representable (n := 24) (by decide)

theorem odd_messages_shown : ∃ telemetry,
    odd_node.bridge.dashboard.snapshot to_double half_volts (3 / 2) = .ok telemetry ∧
    (∀ x ∈ telemetry.numbers, x.isFinite = true) ∧ (telemetry.ultrasonic .left).period = none ∧
    ∃ period, (telemetry.ultrasonic .right).period = some period ∧ BlinkPeriod period := by
  have hfull : IsDouble half_volts.battery_full := ⟨51, -1, by decide, by decide, by decide, by
    change (25.5 : Rat) = _
    norm_num⟩
  have hempty : IsDouble half_volts.battery_empty := ⟨21, 0, by decide, by decide, by decide, by
    change (21.0 : Rat) = _
    norm_num⟩
  have hright : ¬ Unread half_volts (3 / 2) odd_node.bridge .right := by
    unfold Unread
    decide +kernel
  obtain ⟨telemetry, hsnapshot, hfinite, hlights⟩ :=
    telemetry_json_safe (d := odd_node.bridge.dashboard) hfull hempty (by decide +kernel)
      (run_after half_volts FloatResult.value (start half_volts 0) odd_messages (by decide +kernel))
      ⟨rfl, rfl, rfl, odd_doubles⟩ (3 / 2)
  exact ⟨telemetry, hsnapshot, hfinite, ((hlights .left).1 (.inr (.inl (by decide +kernel)))).2,
    ((hlights .right).2 hright).2⟩

end Examples

end IotRobot.Web
