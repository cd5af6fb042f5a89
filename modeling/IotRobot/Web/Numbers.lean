import IotRobot.Web.Authority

/-!
# Numbers from a browser

A message carries any JSON value where a number belongs. `finite_or_zero` makes a finite
number of each of them, except of an integer that no double can hold: `float` raises there
what `finite_or_zero` does not catch, after the driver lock was taken.
-/

namespace IotRobot.Web

open Lib

set_option autoImplicit false

/-- A value that `json.loads` returns. -/
inductive Json (K : Type) where
  | null
  | bool (value : Bool)
  | int (n : Int)
  | float (x : Dbl K)
  | str (text : String)
  | list (items : List (Json K))
  | object (fields : List (String × Json K))

/-- The least integer that rounds beyond the largest double. -/
def FLOAT_OVERFLOW : Int := 2 ^ 1024 - 2 ^ 970

/-- Python's `float`, where `parse` reads the text of a number. -/
def python_float {K : Type} [Field K] (parse : String → Option (Dbl K)) :
    Json K → FloatResult K
  | .null | .list _ | .object _ => .TypeError
  | .bool value => .value (.fin (if value then 1 else 0))
  | .int n => if FLOAT_OVERFLOW ≤ |n| then .OverflowError else .value (.fin n)
  | .float x => .value x
  | .str text =>
    match parse text with
    | some x => .value x
    | none => .ValueError

/-- An integer that no double can hold. -/
def TooBig {K : Type} (value : Json K) : Prop := ∃ n, value = .int n ∧ FLOAT_OVERFLOW ≤ |n|

section Finite
variable {K : Type} [Field K] (parse : String → Option (Dbl K))

theorem python_float_overflows_iff (value : Json K) :
    python_float parse value = .OverflowError ↔ TooBig value := by
  constructor
  · intro h
    cases value with
    | int n =>
      refine ⟨n, rfl, ?_⟩
      by_contra hsmall
      rw [python_float, if_neg hsmall] at h
      cases h
    | str text =>
      rw [python_float] at h
      split at h <;> cases h
    | null | bool | float | list | object => cases h
  · rintro ⟨n, rfl, hbig⟩
    rw [python_float, if_pos hbig]

theorem finite_or_zero_error_iff (value : Json K) :
    (∃ e, finite_or_zero (python_float parse) value = .error e) ↔ TooBig value := by
  rw [← python_float_overflows_iff parse]
  unfold finite_or_zero
  cases python_float parse value with
  | OverflowError => exact iff_of_true ⟨_, rfl⟩ rfl
  | TypeError | ValueError => exact iff_of_false (by rintro ⟨_, ⟨⟩⟩) (by rintro ⟨⟩)
  | value x => cases x <;> exact iff_of_false (by rintro ⟨_, ⟨⟩⟩) (by rintro ⟨⟩)

end Finite

section Bounds
variable {K V : Type} [Field K] [LinearOrder K]

omit [Field K] in
theorem clamp_within (value : K) {low high : K} (h : low ≤ high) :
    low ≤ clamp value low high ∧ clamp value low high ≤ high :=
  ⟨le_max_left _ _, max_le h (min_le_left _ _)⟩

variable [IsStrictOrderedRing K]

/-- A scaled axis stays below the highest speed times the limit. -/
theorem scaled_axis_le (axis speed max_speed : K) {limit : K} (hlimit : 0 ≤ limit) :
    |clamp axis (-1) 1 * clamp speed 0 (max max_speed 0) * limit| ≤ max max_speed 0 * limit := by
  obtain ⟨hlow, hhigh⟩ := clamp_within axis (neg_le_self (zero_le_one (α := K)))
  obtain ⟨hpos, hspeed⟩ := clamp_within speed (le_max_right max_speed (0 : K))
  have haxis : |clamp axis (-1) 1| ≤ 1 := abs_le.mpr ⟨hlow, hhigh⟩
  rw [abs_mul, abs_mul, abs_of_nonneg hpos, abs_of_nonneg hlimit]
  apply mul_le_mul_of_nonneg_right _ hlimit
  calc |clamp axis (-1) 1| * clamp speed 0 (max max_speed 0)
      ≤ 1 * clamp speed 0 (max max_speed 0) := mul_le_mul_of_nonneg_right haxis hpos
    _ = clamp speed 0 (max max_speed 0) := one_mul _
    _ ≤ max max_speed 0 := hspeed

theorem scale_command_bounds (float : V → FloatResult K) {linear_axis angular_axis speed : V}
    {max_linear max_angular max_speed linear angular : K}
    (h : scale_command float linear_axis angular_axis speed max_linear max_angular max_speed =
      .ok (linear, angular)) :
    (0 ≤ max_linear → |linear| ≤ max max_speed 0 * max_linear) ∧
      (0 ≤ max_angular → |angular| ≤ max max_speed 0 * max_angular) := by
  unfold scale_command at h
  cases hs : finite_or_zero float speed with
  | error e => rw [hs] at h; cases h
  | ok s =>
    cases hl : finite_or_zero float linear_axis with
    | error e => rw [hs, hl] at h; cases h
    | ok l =>
      cases ha : finite_or_zero float angular_axis with
      | error e => rw [hs, hl, ha] at h; cases h
      | ok a =>
        rw [hs, hl, ha] at h
        cases h
        exact ⟨scaled_axis_le l s max_speed, scaled_axis_le a s max_speed⟩

end Bounds

theorem scale_command_error_iff {K : Type} [Field K] [LinearOrder K]
    (parse : String → Option (Dbl K)) (linear_axis angular_axis speed : Json K)
    (max_linear max_angular max_speed : K) :
    (∃ e, scale_command (python_float parse) linear_axis angular_axis speed max_linear
      max_angular max_speed = .error e) ↔
      TooBig linear_axis ∨ TooBig angular_axis ∨ TooBig speed := by
  rw [← finite_or_zero_error_iff parse, ← finite_or_zero_error_iff parse,
    ← finite_or_zero_error_iff parse]
  unfold scale_command
  cases finite_or_zero (python_float parse) speed with
  | error e => exact iff_of_true ⟨e, rfl⟩ (.inr (.inr ⟨e, rfl⟩))
  | ok s =>
    cases finite_or_zero (python_float parse) linear_axis with
    | error e => exact iff_of_true ⟨e, rfl⟩ (.inl ⟨e, rfl⟩)
    | ok l =>
      cases finite_or_zero (python_float parse) angular_axis with
      | error e => exact iff_of_true ⟨e, rfl⟩ (.inr (.inl ⟨e, rfl⟩))
      | ok a =>
        refine iff_of_false ?_ ?_
        · rintro ⟨_, ⟨⟩⟩
        · rintro (⟨_, ⟨⟩⟩ | ⟨_, ⟨⟩⟩ | ⟨_, ⟨⟩⟩)

section Calls
variable {K Client : Type} [Field K] [LinearOrder K] [DecidableEq Client]
variable (c : Parameters K) (now : K)

/-- What a look at the driver lock at `now` would find is what it would have found before. -/
def LockKept (s s' : RobotBridge K Client) : Prop :=
  s'.driver_lock.holder now = s.driver_lock.holder now

/-- `drive` returns. A command that it stores is within the limits, and a call that stores
none leaves the lock as `holder` would. -/
structure DriveTamed (s : RobotBridge K Client)
    (r : Except Overflow RobotBridge.DriveReply × RobotBridge K Client) : Prop where
  returns : ∃ reply, r.1 = .ok reply
  bounded : r.1 = .ok .ok → ∃ linear angular, r.2.command = some ⟨linear, angular, now⟩ ∧
    (0 ≤ c.max_linear → |linear| ≤ max c.turbo_speed 0 * c.max_linear) ∧
    (0 ≤ c.max_angular → |angular| ≤ max c.turbo_speed 0 * c.max_angular)
  kept : r.1 ≠ .ok .ok → r.2.command = s.command ∧ LockKept now s r.2
  quiet : sent_in s r.2 = []

/-- `aim_gizmo` returns. An aim that it publishes is within the limits, and a call that
publishes none leaves the lock as `holder` would. -/
structure AimTamed (s : RobotBridge K Client)
    (r : Except Overflow (Option RobotBridge.AimRefusal) × RobotBridge K Client) : Prop where
  returns : ∃ reply, r.1 = .ok reply
  bounded : r.1 = .ok none → ∃ yaw pitch, sent_in s r.2 = [.gizmo yaw pitch] ∧
    (-c.yaw_limit ≤ yaw ∧ yaw ≤ c.yaw_limit) ∧ (c.pitch_min ≤ pitch ∧ pitch ≤ c.pitch_max)
  kept : r.1 ≠ .ok none → sent_in s r.2 = [] ∧ LockKept now s r.2
  command : r.2.command = s.command

/-- What `drive` and `aim_gizmo` refuse before they look at a number. -/
def Refused (client : Client) (s : RobotBridge K Client) : Prop :=
  s.estop = true ∨ ¬ s.driver_lock.FreeFor client now

omit [Field K] [LinearOrder K] [DecidableEq Client] in
theorem sent_in_same {s s' : RobotBridge K Client} (h : s'.sent = s.sent) : sent_in s s' = [] :=
  sent_in_append (h.trans (List.append_nil _).symm)

theorem drive_granted {V : Type} (float : V → FloatResult K) {client : Client}
    {s : RobotBridge K Client} (h : ¬ Refused now client s) (linear angular speed : V) :
    s.drive c float now client linear angular speed =
      match scale_command float linear angular speed c.max_linear c.max_angular c.turbo_speed with
      | .error e => (.error e, { s with driver_lock := s.driver_lock.taken client now })
      | .ok (v, w) => (.ok .ok, { s with
          driver_lock := s.driver_lock.taken client now
          command := some ⟨v, w, now⟩ }) := by
  obtain ⟨he, hfree⟩ := not_or.mp h
  unfold RobotBridge.drive
  rw [if_neg he]
  simp only [DriverLock.holder_request]
  rw [DriverLock.request_granted (not_not.mp hfree)]
  cases scale_command float linear angular speed c.max_linear c.max_angular c.turbo_speed <;> rfl

/-- A granted aim that both conversions let through is published. -/
theorem aim_granted {V : Type} (float : V → FloatResult K) {client : Client}
    {s : RobotBridge K Client} (hmode : s.mode = .DRIVE) (h : ¬ Refused now client s)
    (yaw pitch : V) :
    s.aim_gizmo c float now client yaw pitch =
      match finite_or_zero float yaw, finite_or_zero float pitch with
      | .ok yaw, .ok pitch =>
        (.ok none, { s with driver_lock := s.driver_lock.taken client now }.publish_gizmo
          (clamp yaw (-c.yaw_limit) c.yaw_limit) (clamp pitch c.pitch_min c.pitch_max))
      | _, _ => (.error .OverflowError, { s with driver_lock := s.driver_lock.taken client now }) := by
  obtain ⟨he, hfree⟩ := not_or.mp h
  unfold RobotBridge.aim_gizmo
  rw [if_neg (not_not.mpr hmode), if_neg he, DriverLock.request_granted (not_not.mp hfree)]
  simp only [Bool.true_eq_false, ↓reduceIte]
  cases finite_or_zero float yaw with
  | error e => rfl
  | ok yaw => cases finite_or_zero float pitch <;> rfl

theorem aim_refused {V : Type} (float : V → FloatResult K) {client : Client}
    {s : RobotBridge K Client} (h : s.mode ≠ .DRIVE ∨ Refused now client s) (yaw pitch : V) :
    ∃ reason, s.aim_gizmo c float now client yaw pitch = (.ok (some reason), s) := by
  unfold RobotBridge.aim_gizmo
  by_cases hmode : s.mode ≠ .DRIVE
  · rw [if_pos hmode]
    exact ⟨_, rfl⟩
  rw [if_neg hmode]
  by_cases he : s.estop = true
  · rw [if_pos he]
    exact ⟨_, rfl⟩
  rw [if_neg he]
  rcases s.driver_lock.request_cases client now with ⟨other, -, -, hr⟩ | ⟨hfree, -⟩
  · rw [hr]
    exact ⟨.busy, rfl⟩
  · exact absurd hfree ((h.resolve_left hmode).resolve_left he)

variable (parse : String → Option (Dbl K)) [IsStrictOrderedRing K]

theorem drive_tamed_iff (client : Client) (linear angular speed : Json K)
    (s : RobotBridge K Client) :
    DriveTamed c now s (s.drive c (python_float parse) now client linear angular speed) ↔
      Refused now client s ∨ ¬ (TooBig linear ∨ TooBig angular ∨ TooBig speed) := by
  by_cases hrefused : Refused now client s
  · refine iff_of_true ?_ (.inl hrefused)
    have hcases := drive_cases c (python_float parse) now client linear angular speed s
    generalize s.drive c (python_float parse) now client linear angular speed = r at hcases
    have hfree : s.estop = false → ¬ s.driver_lock.FreeFor client now :=
      fun he => hrefused.resolve_left (Bool.eq_false_iff.mp he)
    cases hcases with
    | estop h => exact ⟨⟨_, rfl⟩, by rintro ⟨⟩, fun _ => ⟨rfl, rfl⟩, sent_in_same rfl⟩
    | busy other h hne hheld =>
      exact ⟨⟨_, rfl⟩, by rintro ⟨⟩, fun _ => ⟨rfl, rfl⟩, sent_in_same rfl⟩
    | overflow e h hfree' => exact absurd hfree' (hfree h)
    | ok v w h hfree' hscale => exact absurd hfree' (hfree h)
  · rw [drive_granted c now _ hrefused, ← scale_command_error_iff parse _ _ _ c.max_linear
      c.max_angular c.turbo_speed]
    cases hscale : scale_command (python_float parse) linear angular speed c.max_linear
      c.max_angular c.turbo_speed with
    | error e =>
      refine iff_of_false (fun h => ?_) (not_or.mpr ⟨hrefused, not_not.mpr ⟨e, rfl⟩⟩)
      obtain ⟨_, ⟨⟩⟩ := h.returns
    | ok command =>
      refine iff_of_true ?_ (.inr (by rintro ⟨_, ⟨⟩⟩))
      exact ⟨⟨_, rfl⟩, fun _ => ⟨_, _, rfl, scale_command_bounds _ hscale⟩,
        fun hne => absurd rfl hne, sent_in_same rfl⟩

/-- The limits of the camera, as far as one is inside them. -/
def LimitsOrdered : Prop := 0 ≤ c.yaw_limit ∧ c.pitch_min ≤ c.pitch_max

theorem aim_tamed_iff (client : Client) (yaw pitch : Json K) (s : RobotBridge K Client) :
    AimTamed c now s (s.aim_gizmo c (python_float parse) now client yaw pitch) ↔
      s.mode ≠ .DRIVE ∨ Refused now client s ∨
        (¬ (TooBig yaw ∨ TooBig pitch) ∧ LimitsOrdered c) := by
  rw [← or_assoc]
  by_cases hrefused : s.mode ≠ .DRIVE ∨ Refused now client s
  · obtain ⟨reason, hr⟩ := aim_refused c now (python_float parse) hrefused yaw pitch
    rw [hr]
    refine iff_of_true ⟨⟨_, rfl⟩, by rintro ⟨⟩, fun _ => ⟨sent_in_same rfl, rfl⟩, rfl⟩ ?_
    exact .inl hrefused
  · obtain ⟨hmode, hfree⟩ := not_or.mp hrefused
    rw [aim_granted c now _ (not_not.mp hmode) hfree, or_iff_right hrefused,
      ← finite_or_zero_error_iff parse, ← finite_or_zero_error_iff parse]
    cases finite_or_zero (python_float parse) yaw with
    | error e =>
      refine iff_of_false (fun h => ?_) (fun h => h.1 (.inl ⟨e, rfl⟩))
      obtain ⟨_, ⟨⟩⟩ := h.returns
    | ok yaw =>
      cases finite_or_zero (python_float parse) pitch with
      | error e =>
        refine iff_of_false (fun h => ?_) (fun h => h.1 (.inr ⟨e, rfl⟩))
        obtain ⟨_, ⟨⟩⟩ := h.returns
      | ok pitch =>
        have hsent : sent_in s ({ s with driver_lock := s.driver_lock.taken client now }.publish_gizmo
            (clamp yaw (-c.yaw_limit) c.yaw_limit) (clamp pitch c.pitch_min c.pitch_max)) =
            [.gizmo (clamp yaw (-c.yaw_limit) c.yaw_limit)
              (clamp pitch c.pitch_min c.pitch_max)] := sent_in_append rfl
        constructor
        · intro h
          refine ⟨by rintro (⟨_, ⟨⟩⟩ | ⟨_, ⟨⟩⟩), ?_⟩
          obtain ⟨y, p, -, hyaw, hpitch⟩ := h.bounded rfl
          have hyaw := hyaw.1.trans hyaw.2
          exact ⟨by linarith, hpitch.1.trans hpitch.2⟩
        · rintro ⟨-, hyaw, hpitch⟩
          exact ⟨⟨_, rfl⟩, fun _ => ⟨_, _, hsent, clamp_within _ (neg_le_self hyaw),
            clamp_within _ hpitch⟩, fun hne => absurd rfl hne, rfl⟩

/-- For every JSON value in place of a number and in every state, `drive` and `aim_gizmo` are
tamed unless they get as far as a number that is an integer beyond the doubles; an aim that
is published also needs limits that are not reversed. -/
theorem client_numbers_tamed_iff (client : Client) (s : RobotBridge K Client) :
    (∀ linear angular speed : Json K,
      DriveTamed c now s (s.drive c (python_float parse) now client linear angular speed) ↔
        Refused now client s ∨ ¬ (TooBig linear ∨ TooBig angular ∨ TooBig speed)) ∧
    (∀ yaw pitch : Json K,
      AimTamed c now s (s.aim_gizmo c (python_float parse) now client yaw pitch) ↔
        s.mode ≠ .DRIVE ∨ Refused now client s ∨
          (¬ (TooBig yaw ∨ TooBig pitch) ∧ LimitsOrdered c)) :=
  ⟨fun linear angular speed => drive_tamed_iff c now parse client linear angular speed s,
    fun yaw pitch => aim_tamed_iff c now parse client yaw pitch s⟩

end Calls

section Examples

/-- The node as it starts, with browser values that are JSON. -/
abbrev fresh : RobotBridge Rat String := RobotBridge.init web_controller_yaml 0

/-- A driver that sends text instead of numbers gets zeros. -/
theorem drive_tamed_text :
    DriveTamed web_controller_yaml 1 fresh
      (fresh.drive web_controller_yaml (python_float fun _ => none) 1 "phone" (.str "full")
        .null (.list [])) := by
  refine ((client_numbers_tamed_iff web_controller_yaml 1 _ "phone" fresh).1 _ _ _).mpr (.inr ?_)
  rintro (⟨_, ⟨⟩, -⟩ | ⟨_, ⟨⟩, -⟩ | ⟨_, ⟨⟩, -⟩)

/-- The integer 10 ^ 400, 401 digits of a message, makes `drive` raise with the lock taken. -/
theorem drive_overflows :
    ¬ DriveTamed web_controller_yaml 1 fresh
      (fresh.drive web_controller_yaml (python_float fun _ => none) 1 "phone" (.int (10 ^ 400))
        (.int 0) (.int 1)) ∧
    ((fresh.drive web_controller_yaml (python_float fun _ => none) 1 "phone" (.int (10 ^ 400))
      (.int 0) (.int 1)).2.driver_lock.holder 1).1 = some "phone" := by
  refine ⟨fun h => ?_, by decide +kernel⟩
  obtain ⟨reply, hreply⟩ := h.returns
  have hraised : (fresh.drive web_controller_yaml (python_float fun _ => none) 1 "phone"
      (.int (10 ^ 400)) (.int 0) (.int 1)).1.toOption = none := by decide +kernel
  rw [hreply] at hraised
  cases hraised

end Examples

end IotRobot.Web
