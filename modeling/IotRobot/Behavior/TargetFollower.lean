import IotRobot.Lib.Motion
import IotRobot.Lib.Runs
import IotRobot.Perception.PersonDetector

/-!
# The target follower

`TargetFollower` of `target_follower.py` in exact arithmetic. What tf answers and what the clock
reads comes with the events; the functions of `math` and `do_transform_point` of
`tf2_geometry_msgs` are parameters.
-/

namespace IotRobot.Behavior

open Lib
open Perception (Quaternion rotation_matrix)

set_option autoImplicit false

section Records
variable (K : Type)

/-- A `geometry_msgs` transform. -/
structure Transform where
  translation : Fin 3 → K
  rotation : Quaternion K

/-- What `lookup_transform` does: an `ExtrapolationException` is one of the exceptions of tf. -/
inductive Lookup where
  | found (transform : Transform K)
  | extrapolation
  | failed

/-- The parameters but for the name of the world frame. -/
structure Parameters where
  follow_distance : K
  linear_gain : K
  angular_gain : K
  max_linear : K
  max_angular : K
  lost_timeout : K
  search_angular : K
  yaw_limit : K
  pitch_min : K
  pitch_max : K
  search_pitch : K
  search_timeout : K

/-- What the node calls of `math` and of `tf2_geometry_msgs`. -/
structure Functions where
  atan2 : K → K → K
  hypot : K → K → K
  cos : K → K
  do_transform_point : (Fin 3 → K) → Transform K → Fin 3 → K

/-- The latest target in the world frame, and the node time of its detection. -/
structure Seen where
  target : Fin 3 → K
  last_seen : Int

/-- `target` and `last_seen` are set together; a node that has none has seen nothing. -/
structure TargetFollower [Zero K] where
  seen : Option (Seen K) := none
  last_bearing : K := 0

/-- The two components of a `TwistStamped` that the node sets. -/
structure Twist where
  linear_x : K
  angular_z : K

/-- What a call publishes: `[yaw, pitch]` for the gizmo, and a velocity. -/
structure Published where
  gizmo : Option (K × K) := none
  cmd_vel : Option (Twist K) := none

inductive Event where
  | on_target (point : Fin 3 → K) (stamped latest : Lookup K) (now : Int)
  | control_loop (now : Int) (world_to_base pitch_joint : Option (Transform K))

end Records

section Model
variable {K : Type} [Field K] [LinearOrder K]

/-- The default parameters of the node. -/
def defaults : Parameters K where
  follow_distance := 0.6
  linear_gain := 1.0
  angular_gain := 2.5
  max_linear := 0.5
  max_angular := 2.0
  lost_timeout := 0.5
  search_angular := 0.8
  yaw_limit := 0.785398
  pitch_min := -0.785398
  pitch_max := 0.0
  search_pitch := 0.0
  search_timeout := 10.0

def clamp (value low high : K) : K := max low (min high value)

-- the numerals of an axis
local instance axis_numerals : NeZero 3 := ⟨three_ne_zero⟩

omit [LinearOrder K] in
/-- Where the camera was when the image was taken, or where it is now if the image is too new. -/
def camera_to_world (stamped latest : Lookup K) : Option (Transform K) :=
  match stamped with
  | .found transform => some transform
  | .extrapolation =>
    match latest with
    | .found transform => some transform
    | .extrapolation | .failed => none
  | .failed => none

namespace TargetFollower

variable (f : Functions K) (c : Parameters K)

omit [LinearOrder K] in
def on_target (point : Fin 3 → K) (stamped latest : Lookup K) (now : Int) (s : TargetFollower K) :
    TargetFollower K :=
  match camera_to_world stamped latest with
  | none => s
  | some transform => { s with seen := some ⟨f.do_transform_point point transform, now⟩ }

/-- Seconds since the latest detection; `none` is infinity. -/
def unseen (now : Int) (s : TargetFollower K) : Option K :=
  s.seen.map fun seen => (now - seen.last_seen : Int) * 1e-9

/-- The target lost: recentre the gizmo and turn towards where it was last seen. -/
def search (now : Int) (s : TargetFollower K) : Published K where
  gizmo := some (0.0, c.search_pitch)
  cmd_vel := some
    { linear_x := 0.0
      angular_z :=
        if (s.unseen now).any fun unseen => unseen < c.search_timeout then
          copysign c.search_angular s.last_bearing
        else 0.0 }

/-- Aim and drive at a target in the base frame, with the pitch joint at `origin`. -/
def track (target origin : Fin 3 → K) : Published K :=
  let bearing := f.atan2 (target 1) (target 0)
  let distance := f.hypot (target 0) (target 1)
  let yaw := clamp bearing (-c.yaw_limit) c.yaw_limit
  let height := target 2 - origin 2
  let horizontal := f.hypot (target 0 - origin 0) (target 1 - origin 1)
  let pitch := clamp (-f.atan2 height horizontal) c.pitch_min c.pitch_max
  let heading_scale := max 0.0 (f.cos bearing)
  { gizmo := some (yaw, pitch)
    cmd_vel := some
      { linear_x := heading_scale *
          clamp (c.linear_gain * (distance - c.follow_distance)) (-c.max_linear) c.max_linear
        angular_z := clamp (c.angular_gain * bearing) (-c.max_angular) c.max_angular } }

/-- `control_loop`: what it publishes, and the node after it. -/
def control_loop (now : Int) (world_to_base pitch_joint : Option (Transform K)) (s : TargetFollower K) :
    Published K × TargetFollower K :=
  match s.seen with
  | none => (search c now s, s)
  | some seen =>
    if (s.unseen now).any fun unseen => c.lost_timeout < unseen then (search c now s, s)
    else
      match world_to_base, pitch_joint with
      | some world_to_base, some pitch_joint =>
        let target := f.do_transform_point seen.target world_to_base
        (track f c target pitch_joint.translation,
          { s with last_bearing := f.atan2 (target 1) (target 0) })
      | _, _ => ({}, s)

/-- A callback of the node. -/
def handle (s : TargetFollower K) : Event K → Published K × TargetFollower K
  | .on_target point stamped latest now => ({}, s.on_target f point stamped latest now)
  | .control_loop now world_to_base pitch_joint => s.control_loop f c now world_to_base pitch_joint

/-- One event of a run of the node. -/
def next (s : TargetFollower K) (e : Event K) (s' : TargetFollower K) : Prop := s' = (s.handle f c e).2

end TargetFollower

omit [Field K] [LinearOrder K] in
/-- What an event stores: a target that tf can place in the world. -/
def stored (f : Functions K) : Event K → Option (Seen K)
  | .on_target point stamped latest now =>
    (camera_to_world stamped latest).map fun transform => ⟨f.do_transform_point point transform, now⟩
  | .control_loop .. => none

/-- The latest target that a run has stored. -/
def latest_stored (f : Functions K) (es : List (Event K)) : Option (Seen K) :=
  (es.filterMap (stored f)).getLast?

variable {f : Functions K} {c : Parameters K} {es : List (Event K)} {s : TargetFollower K}

omit [Field K] [LinearOrder K] in
theorem latest_stored_snoc (es : List (Event K)) (e : Event K) :
    latest_stored f (es ++ [e]) = (stored f e).or (latest_stored f es) := by
  unfold latest_stored
  rw [List.filterMap_append]
  cases hstored : stored f e with
  | none => simp [hstored]
  | some seen => simp [hstored]

/-- The node knows the latest target that could be stored. -/
theorem run_seen (hr : Run (TargetFollower.next f c) {} es s) : s.seen = latest_stored f es := by
  induction hr with
  | nil => rfl
  | snoc hrun hn ih =>
    rename_i es₁ u v e
    obtain rfl : v = (u.handle f c e).2 := hn
    rw [latest_stored_snoc]
    cases e with
    | on_target point stamped latest now =>
      unfold TargetFollower.handle TargetFollower.on_target
      dsimp only
      cases htransform : camera_to_world stamped latest with
      | none => simpa [stored, htransform] using ih
      | some transform => simp [stored, htransform]
    | control_loop now world_to_base pitch_joint =>
      have hsame : (u.control_loop f c now world_to_base pitch_joint).2.seen = u.seen := by
        unfold TargetFollower.control_loop
        split
        · rfl
        split
        · rfl
        split <;> rfl
      exact hsame.trans ih

/-- The bearing of the target in an event that tracks it. -/
def bearing_of (f : Functions K) (c : Parameters K) (s : TargetFollower K) : Event K → Option K
  | .on_target .. => none
  | .control_loop now world_to_base pitch_joint =>
    match s.seen, world_to_base, pitch_joint with
    | some seen, some world_to_base, some _ =>
      if (s.unseen now).any fun unseen => c.lost_timeout < unseen then none
      else
        let target := f.do_transform_point seen.target world_to_base
        some (f.atan2 (target 1) (target 0))
    | _, _, _ => none

/-- The bearings at which a run has tracked its targets, in order. -/
def bearings (f : Functions K) (c : Parameters K) : TargetFollower K → List (Event K) → List K
  | _, [] => []
  | s, e :: es => (bearing_of f c s e).toList ++ bearings f c (s.handle f c e).2 es

theorem handle_bearing (s : TargetFollower K) (e : Event K) :
    (s.handle f c e).2.last_bearing = (bearing_of f c s e).getD s.last_bearing := by
  cases e with
  | on_target point stamped latest now =>
    unfold TargetFollower.handle TargetFollower.on_target
    dsimp only
    split <;> rfl
  | control_loop now world_to_base pitch_joint =>
    unfold TargetFollower.handle TargetFollower.control_loop bearing_of
    dsimp only
    cases hseen : s.seen with
    | none => rfl
    | some seen =>
      cases world_to_base with
      | none => dsimp only; split <;> rfl
      | some transform =>
        cases pitch_joint with
        | none => dsimp only; split <;> rfl
        | some joint => dsimp only; split <;> rfl

/-- The node remembers the bearing at which it tracked last. -/
theorem run_bearing (hr : Run (TargetFollower.next f c) {} es s) :
    s.last_bearing = (bearings f c {} es).getLastD 0 := by
  induction hr with
  | nil => rfl
  | snoc hrun hn ih =>
    rename_i es₁ u v e
    obtain rfl : v = (u.handle f c e).2 := hn
    have hsnoc : bearings f c {} (es₁ ++ [e]) = bearings f c {} es₁ ++ (bearing_of f c u e).toList :=
      Run.history_snoc (f := fun s e => (TargetFollower.handle f c s e).2)
        (g := fun s e => (bearing_of f c s e).toList) (fun _ => rfl) (fun _ _ _ => rfl) (fun _ _ _ h => h) hrun e
    rw [hsnoc, handle_bearing]
    cases bearing_of f c u e with
    | none => simpa using ih
    | some bearing => simp

/-- Parameters as the node is meant to be given them. -/
structure Parameters.Sane (c : Parameters K) : Prop where
  linear_gain : 0 ≤ c.linear_gain
  max_linear : 0 ≤ c.max_linear
  max_angular : 0 ≤ c.max_angular
  yaw_limit : 0 ≤ c.yaw_limit
  pitch : c.pitch_min ≤ c.pitch_max

omit [Field K] in
theorem clamp_bounds {low high : K} (h : low ≤ high) (value : K) :
    low ≤ clamp value low high ∧ clamp value low high ≤ high :=
  ⟨le_max_left _ _, max_le h (min_le_left _ _)⟩

variable [IsStrictOrderedRing K]

theorem abs_clamp_le {limit : K} (h : 0 ≤ limit) (value : K) : |clamp value (-limit) limit| ≤ limit :=
  abs_le.mpr (clamp_bounds (by linarith) value)

/-- A number that is clamped to a symmetric range keeps its sign. -/
theorem clamp_sign {limit : K} (h : 0 ≤ limit) (value : K) :
    (0 < clamp value (-limit) limit → 0 < value) ∧ (clamp value (-limit) limit < 0 → value < 0) := by
  unfold clamp
  constructor
  · intro hpos
    rcases lt_max_iff.mp hpos with hneg | hmin
    · linarith
    · exact (lt_min_iff.mp hmin).2
  · intro hneg
    rcases min_lt_iff.mp (max_lt_iff.mp hneg).2 with hlimit | hvalue
    · linarith
    · exact hvalue

/-- What the published velocity of a tracking call says about the target. -/
theorem track_bounds (hc : c.Sane) (hcos : ∀ x, |f.cos x| ≤ 1) (target origin : Fin 3 → K) {v : Twist K}
    (hv : (TargetFollower.track f c target origin).cmd_vel = some v) :
    |v.linear_x| ≤ c.max_linear ∧ |v.angular_z| ≤ c.max_angular ∧
    (0 < v.linear_x → c.follow_distance < f.hypot (target 0) (target 1)) ∧
    (v.linear_x < 0 → f.hypot (target 0) (target 1) < c.follow_distance) ∧
    (v.linear_x ≠ 0 → 0 < f.cos (f.atan2 (target 1) (target 0))) := by
  obtain rfl := Option.some.inj hv
  dsimp only
  have hzero : (0.0 : K) = 0 := by norm_num
  rw [hzero]
  have hscale := le_max_left 0 (f.cos (f.atan2 (target 1) (target 0)))
  have hone : max 0 (f.cos (f.atan2 (target 1) (target 0))) ≤ 1 :=
    max_le zero_le_one ((le_abs_self _).trans (hcos _))
  have hclamp := abs_clamp_le hc.max_linear
    (c.linear_gain * (f.hypot (target 0) (target 1) - c.follow_distance))
  have hsign := clamp_sign hc.max_linear
    (c.linear_gain * (f.hypot (target 0) (target 1) - c.follow_distance))
  generalize clamp (c.linear_gain * (f.hypot (target 0) (target 1) - c.follow_distance))
    (-c.max_linear) c.max_linear = speed at *
  refine ⟨?_, abs_clamp_le hc.max_angular _, fun h => ?_, fun h => ?_, fun h => ?_⟩
  · rw [abs_mul, abs_of_nonneg hscale]
    calc max 0 (f.cos (f.atan2 (target 1) (target 0))) * |speed| ≤ 1 * |speed| :=
          mul_le_mul_of_nonneg_right hone (abs_nonneg _)
      _ ≤ c.max_linear := by rw [one_mul]; exact hclamp
  · have hahead := hsign.1 (pos_of_mul_pos_right h hscale)
    exact sub_pos.mp (pos_of_mul_pos_right hahead hc.linear_gain)
  · have hback := hsign.2 (neg_of_mul_neg_right h hscale)
    exact sub_neg.mp (neg_of_mul_neg_right hback hc.linear_gain)
  · by_contra hnot
    exact h (by rw [max_eq_left (not_lt.mp hnot), zero_mul])

omit [IsStrictOrderedRing K] in
/-- A control call searches, tracks the target it knows, or publishes nothing. -/
theorem control_cases (s : TargetFollower K) (now : Int) (world_to_base pitch_joint : Option (Transform K)) :
    (s.control_loop f c now world_to_base pitch_joint).1 = TargetFollower.search c now s ∨
    (s.control_loop f c now world_to_base pitch_joint).1 = {} ∨
    ∃ seen to_base joint, s.seen = some seen ∧ world_to_base = some to_base ∧ pitch_joint = some joint ∧
      ((now - seen.last_seen : Int) : K) * 1e-9 ≤ c.lost_timeout ∧
      (s.control_loop f c now world_to_base pitch_joint).1 =
        TargetFollower.track f c (f.do_transform_point seen.target to_base) joint.translation := by
  unfold TargetFollower.control_loop
  cases hseen : s.seen with
  | none => exact .inl rfl
  | some seen =>
    dsimp only
    by_cases hlost : (s.unseen now).any fun unseen => c.lost_timeout < unseen
    · rw [if_pos hlost]
      exact .inl rfl
    · rw [if_neg hlost]
      cases world_to_base with
      | none => exact .inr (.inl rfl)
      | some to_base =>
        cases pitch_joint with
        | none => exact .inr (.inl rfl)
        | some joint =>
          refine .inr (.inr ⟨seen, to_base, joint, rfl, rfl, rfl, ?_, rfl⟩)
          simpa [TargetFollower.unseen, hseen] using hlost

/-- Whatever tf answers, wherever it transforms a point to, and whatever the node is told, it keeps
its limits: the gizmo is recentred or stays within the range of its joints, and the base within
its speeds. It drives only at a target that it has seen within `lost_timeout` and faces, forwards
only if the target is too far and backwards only if it is too near; and it turns only after a
target that it has seen within one of its timeouts, while searching towards the side on which it
tracked last. -/
theorem follower_keeps_limits (hc : c.Sane) (hcos : ∀ x, |f.cos x| ≤ 1)
    (hr : Run (TargetFollower.next f c) {} es s) (now : Int) (world_to_base pitch_joint : Option (Transform K)) :
    (∀ yaw pitch, (s.control_loop f c now world_to_base pitch_joint).1.gizmo = some (yaw, pitch) →
      yaw = 0 ∧ pitch = c.search_pitch ∨ |yaw| ≤ c.yaw_limit ∧ c.pitch_min ≤ pitch ∧ pitch ≤ c.pitch_max) ∧
    ∀ v, (s.control_loop f c now world_to_base pitch_joint).1.cmd_vel = some v →
      |v.linear_x| ≤ c.max_linear ∧ |v.angular_z| ≤ max c.max_angular |c.search_angular| ∧
      (v.linear_x ≠ 0 → ∃ seen to_base, latest_stored f es = some seen ∧ world_to_base = some to_base ∧
        ((now - seen.last_seen : Int) : K) * 1e-9 ≤ c.lost_timeout ∧
        let target := f.do_transform_point seen.target to_base
        0 < f.cos (f.atan2 (target 1) (target 0)) ∧
        (0 < v.linear_x → c.follow_distance < f.hypot (target 0) (target 1)) ∧
        (v.linear_x < 0 → f.hypot (target 0) (target 1) < c.follow_distance)) ∧
      (v.angular_z ≠ 0 → ∃ seen, latest_stored f es = some seen ∧
        (((now - seen.last_seen : Int) : K) * 1e-9 ≤ c.lost_timeout ∨
          ((now - seen.last_seen : Int) : K) * 1e-9 < c.search_timeout ∧
          v.angular_z = copysign c.search_angular ((bearings f c {} es).getLastD 0))) := by
  rw [← run_seen hr, ← run_bearing hr]
  have hzero : (0.0 : K) = 0 := by norm_num
  rcases control_cases (f := f) (c := c) s now world_to_base pitch_joint with
    hsearch | hnone | ⟨seen, to_base, joint, hseen, hbase, -, hrecent, htrack⟩
  · rw [hsearch]
    constructor
    · intro yaw pitch h
      obtain ⟨hyaw, hpitch⟩ := Prod.mk.inj (Option.some.inj h)
      exact .inl ⟨by rw [← hyaw, hzero], hpitch.symm⟩
    · intro v h
      obtain rfl := Option.some.inj h
      dsimp only
      rw [hzero]
      refine ⟨by simpa using hc.max_linear, ?_, fun h => absurd rfl h, ?_⟩
      · split_ifs
        · rw [abs_copysign]
          exact le_max_right _ _
        · rw [abs_zero]
          exact hc.max_angular.trans (le_max_left _ _)
      · split_ifs with htime
        · intro _
          cases hseen : s.seen with
          | none => simp [TargetFollower.unseen, hseen] at htime
          | some seen => exact ⟨seen, rfl, .inr ⟨by simpa [TargetFollower.unseen, hseen] using htime, rfl⟩⟩
        · exact fun h => absurd rfl h
  · rw [hnone]
    constructor
    · intro yaw pitch h
      cases h
    · intro v h
      cases h
  · rw [htrack]
    constructor
    · intro yaw pitch h
      obtain ⟨hyaw, hpitch⟩ := Prod.mk.inj (Option.some.inj h)
      right
      rw [← hyaw, ← hpitch]
      exact ⟨abs_clamp_le hc.yaw_limit _, clamp_bounds hc.pitch _⟩
    · intro v h
      obtain ⟨hlinear, hangular, hfar, hclose, hfaces⟩ := track_bounds hc hcos _ _ h
      exact ⟨hlinear, hangular.trans (le_max_left _ _),
        fun hmoves => ⟨seen, to_base, hseen, hbase, hrecent, hfaces hmoves, hfar, hclose⟩,
        fun _ => ⟨seen, hseen, .inl hrecent⟩⟩

end Model

/-- They agree with the functions of `math` for a point on the x axis ahead, and with
`do_transform_point` for unit quaternions. -/
def straight : Functions ℚ where
  atan2 _ _ := 0
  hypot x _ := |x|
  cos _ := 1
  do_transform_point point t := (rotation_matrix t.rotation).mulVec point + t.translation

/-- A frame at the origin. -/
def identity : Transform ℚ := ⟨0, ⟨0, 0, 0, 1⟩⟩

/-- The node hears of a target and then tracks it. -/
def tracked : TargetFollower ℚ :=
  (TargetFollower.handle straight defaults {} (.on_target ![2, 0, 0] (.found identity) .failed 0)).2

theorem follower_keeps_limits_ahead :
    ∃ v, (tracked.control_loop straight defaults 50000000 (some identity) (some identity)).1.cmd_vel = some v ∧
      |v.linear_x| ≤ (defaults : Parameters ℚ).max_linear := by
  obtain ⟨v, hv⟩ : ∃ v,
      (tracked.control_loop straight defaults 50000000 (some identity) (some identity)).1.cmd_vel = some v := by
    refine Option.isSome_iff_exists.mp ?_
    decide +kernel
  have hsane : (defaults : Parameters ℚ).Sane := by
    constructor <;> norm_num [defaults]
  have hcos : ∀ x : ℚ, |straight.cos x| ≤ 1 := fun x => by simp [straight]
  have hrun : Run (TargetFollower.next straight defaults) {}
      [.on_target ![2, 0, 0] (.found identity) .failed 0] tracked := Run.single rfl
  have hlimits := follower_keeps_limits hsane hcos hrun 50000000 (some identity) (some identity)
  exact ⟨v, hv, (hlimits.2 v hv).1⟩

end IotRobot.Behavior
