import IotRobot.Perception.PersonDetector
import Mathlib.Analysis.Real.Sqrt
import Mathlib.Tactic.FinCases
import Mathlib.Tactic.LinearCombination

/-!
# Localisation inverts the projection

An upright torso that a tilted camera sees through a pinhole is found where it is. The back
projection undoes the pinhole up to the depth, the rotation into the level frame keeps the
depth as a common factor, and the quotients by the horizontal part of the rays cancel it.
-/

namespace IotRobot.Perception

open Lib Matrix

set_option autoImplicit false

section Scene
variable {K : Type} [Field K]

def Quaternion.Unit (q : Quaternion K) : Prop :=
  q.x * q.x + q.y * q.y + q.z * q.z + q.w * q.w = 1

/-- The matrix of a unit quaternion is orthogonal. -/
theorem rotation_matrix_orthogonal [CharZero K] {q : Quaternion K} (h : q.Unit) :
    (rotation_matrix q)ᵀ * rotation_matrix q = 1 := by
  obtain ⟨x, y, z, w⟩ := q
  have hunit : x * x + y * y + z * z + w * w = 1 := h
  have htwo : (2.0 : K) = 2 := by norm_num
  -- the excess of the product over 1 is 4 (|q|² - 1) (|v|² 1 - v vᵀ) for the vector part v
  ext i j
  fin_cases i <;> fin_cases j <;>
    simp [rotation_matrix, htwo, Matrix.mul_apply, Fin.sum_univ_three]
  · linear_combination 4 * (y * y + z * z) * hunit
  · linear_combination -4 * (x * y) * hunit
  · linear_combination -4 * (x * z) * hunit
  · linear_combination -4 * (x * y) * hunit
  · linear_combination 4 * (x * x + z * z) * hunit
  · linear_combination -4 * (y * z) * hunit
  · linear_combination -4 * (x * z) * hunit
  · linear_combination -4 * (y * z) * hunit
  · linear_combination 4 * (x * x + y * y) * hunit

theorem optical_to_level_orthogonal :
    (OPTICAL_TO_LEVELᵀ * OPTICAL_TO_LEVEL : Matrix (Fin 3) (Fin 3) K) = 1 := by
  ext i j
  fin_cases i <;> fin_cases j <;>
    simp [OPTICAL_TO_LEVEL, Matrix.mul_apply, Fin.sum_univ_three]

/-- With and without a level frame the camera's rotation is orthogonal. -/
theorem camera_rotation_orthogonal [CharZero K] {c : Parameters K} {transform : Option (Quaternion K)}
    (hunit : ∀ q, transform = some q → q.Unit) {rotation : Matrix (Fin 3) (Fin 3) K}
    (h : camera_rotation c transform = some rotation) : rotationᵀ * rotation = 1 := by
  unfold camera_rotation at h
  split at h
  · obtain rfl := Option.some.inj h
    exact optical_to_level_orthogonal
  · obtain ⟨q, hq, rfl⟩ := Option.map_eq_some_iff.mp h
    exact rotation_matrix_orthogonal (hunit q hq)

variable [LinearOrder K]

/-- The norm of a pair, without rounding. -/
structure ExactHypot (hypot : K → K → K) : Prop where
  nonneg : ∀ x y, 0 ≤ hypot x y
  square : ∀ x y, hypot x y * hypot x y = x * x + y * y

/-- The two midpoints in the optical frame of a camera that `rotation` levels: the shoulders
straight above the hips, both in front of the camera and `d` away from it. -/
structure UprightTorso (hypot : K → K → K) (torso_length d : K)
    (rotation : Matrix (Fin 3) (Fin 3) K) (shoulder hip : Fin 3 → K) : Prop where
  upright : rotation *ᵥ shoulder = rotation *ᵥ hip + ![0, 0, torso_length]
  horizontal : hypot ((rotation *ᵥ hip) 0) ((rotation *ᵥ hip) 1) = d
  away : 0 < d
  shoulder_in_front : 0 < shoulder 2
  hip_in_front : 0 < hip 2

variable [IsStrictOrderedRing K] {hypot : K → K → K}

/-- The ray through the pixel of a point is the levelled point over its depth. -/
theorem level_ray_project {m : CameraMatrix K} (hfx : m.fx ≠ 0) (hfy : m.fy ≠ 0)
    (rotation : Matrix (Fin 3) (Fin 3) K) {p : Fin 3 → K} (hp : p 2 ≠ 0) :
    level_ray m rotation (project m p) = (p 2)⁻¹ • (rotation *ᵥ p) := by
  have hray : ![((project m p).1 - m.cx) / m.fx, ((project m p).2 - m.cy) / m.fy, 1.0] =
      (p 2)⁻¹ • p := by
    ext i
    fin_cases i
    · show (m.fx * (p 0 / p 2) + m.cx - m.cx) / m.fx = (p 2)⁻¹ * p 0
      rw [add_sub_cancel_right, mul_div_cancel_left₀ _ hfx, div_eq_inv_mul]
    · show (m.fy * (p 1 / p 2) + m.cy - m.cy) / m.fy = (p 2)⁻¹ * p 1
      rw [add_sub_cancel_right, mul_div_cancel_left₀ _ hfy, div_eq_inv_mul]
    · show (1.0 : K) = (p 2)⁻¹ * p 2
      rw [inv_mul_cancel₀ hp]
      norm_num
  unfold level_ray
  rw [hray, Matrix.mulVec_smul]

theorem ExactHypot.eq_of_square (h : ExactHypot hypot) {x y r : K} (hr : 0 ≤ r)
    (hsquare : r * r = x * x + y * y) : hypot x y = r := by
  have hsame : hypot x y * hypot x y = r * r := (h.square x y).trans hsquare.symm
  exact (mul_self_inj (h.nonneg x y) hr).mp hsame

theorem ExactHypot.scale (h : ExactHypot hypot) {t : K} (ht : 0 ≤ t) (x y : K) :
    hypot (t * x) (t * y) = t * hypot x y := by
  apply h.eq_of_square (mul_nonneg ht (h.nonneg x y))
  linear_combination t * t * h.square x y

/-- The depth of a point cancels in its ray over the horizontal part of the ray. -/
theorem ray_over_flat (h : ExactHypot hypot) {t : K} (ht : 0 < t) (v : Fin 3 → K) (i : Fin 3) :
    (t • v) i / hypot ((t • v) 0) ((t • v) 1) = v i / hypot (v 0) (v 1) := by
  have hflat : hypot ((t • v) 0) ((t • v) 1) = t * hypot (v 0) (v 1) := h.scale ht.le _ _
  rw [hflat, Pi.smul_apply, smul_eq_mul]
  exact mul_div_mul_left _ _ ht.ne'

/-- The computation on the pixels of an upright torso gives back its distance and its centre,
for any orthogonal rotation. -/
theorem locate_projected (hhypot : ExactHypot hypot) {rotation : Matrix (Fin 3) (Fin 3) K}
    (hrotation : rotationᵀ * rotation = 1) {m : CameraMatrix K} (hfx : m.fx ≠ 0)
    (hfy : m.fy ≠ 0) {torso_length d : K} {shoulder hip : Fin 3 → K}
    (h : UprightTorso hypot torso_length d rotation shoulder hip)
    (hgap : 1e-3 < torso_length / d) :
    locate hypot torso_length m rotation (project m shoulder) (project m hip) =
      some (d, fun i => (shoulder i + hip i) / 2) := by
  have hd := h.away.ne'
  -- the shoulders are at the same horizontal place as the hips, and higher
  have hlevel (i : Fin 3) : (rotation *ᵥ shoulder) i =
      (rotation *ᵥ hip) i + (![0, 0, torso_length] : Fin 3 → K) i := by
    rw [h.upright, Pi.add_apply]
  have hx : (rotation *ᵥ shoulder) 0 = (rotation *ᵥ hip) 0 := by
    rw [hlevel]
    exact add_zero _
  have hy : (rotation *ᵥ shoulder) 1 = (rotation *ᵥ hip) 1 := by
    rw [hlevel]
    exact add_zero _
  have hz : (rotation *ᵥ shoulder) 2 = (rotation *ᵥ hip) 2 + torso_length := hlevel 2
  have hshoulder (i : Fin 3) := ray_over_flat hhypot (inv_pos.mpr h.shoulder_in_front)
    (rotation *ᵥ shoulder) i
  have hhip (i : Fin 3) := ray_over_flat hhypot (inv_pos.mpr h.hip_in_front) (rotation *ᵥ hip) i
  rw [hx, hy, h.horizontal] at hshoulder
  rw [h.horizontal] at hhip
  unfold locate
  dsimp only
  rw [level_ray_project hfx hfy rotation h.shoulder_in_front.ne',
    level_ray_project hfx hfy rotation h.hip_in_front.ne']
  simp only [hshoulder, hhip]
  have helevation : (rotation *ᵥ shoulder) 2 / d - (rotation *ᵥ hip) 2 / d = torso_length / d := by
    rw [hz, add_div, add_sub_cancel_left]
  have hlength : torso_length ≠ 0 := by
    rintro rfl
    rw [zero_div] at hgap
    exact absurd hgap (by norm_num)
  have hdistance : torso_length / (torso_length / d) = d := by
    rw [div_div_eq_mul_div, mul_div_cancel_left₀ _ hlength]
  rw [helevation, if_pos hgap, hdistance]
  -- back in the optical frame, the inverse rotation meets the rotation
  have hcentre : (fun i => ((rotation *ᵥ shoulder) i / d + (rotation *ᵥ hip) i / d) / 2.0 * d) =
      rotation *ᵥ fun i => (shoulder i + hip i) / 2 := by
    have hmiddle : (fun i => (shoulder i + hip i) / 2) = (2⁻¹ : K) • (shoulder + hip) := by
      funext i
      rw [Pi.smul_apply, Pi.add_apply, smul_eq_mul, div_eq_inv_mul]
    rw [hmiddle, Matrix.mulVec_smul, Matrix.mulVec_add]
    funext i
    rw [Pi.smul_apply, Pi.add_apply, smul_eq_mul]
    field_simp
    norm_num
  rw [hcentre, Matrix.mulVec_mulVec, hrotation, Matrix.one_mulVec]

end Scene

/-- What an image of a calibrated camera reports about the target's place. -/
theorem on_image_locates {K : Type} {n recent_size : Nat} {Id : Type} [Field K] [LinearOrder K]
    {c : Parameters K} {hypot : K → K → K} {s : PersonDetector K n recent_size Id}
    {msg : ImageMsg K n Id} {m : CameraMatrix K} {seen : Seen K n Id} {person : Person K n Id}
    (hcamera : s.camera_matrix = some m) (hseen : (s.on_image c hypot msg).1 = some seen)
    (htarget : seen.target = some person) {rotation : Matrix (Fin 3) (Fin 3) K}
    (hrotation : camera_rotation c msg.rotation = some rotation) :
    seen.distance = (locate hypot c.torso_length m rotation person.shoulder person.hip).map Prod.fst ∧
    seen.position = (locate hypot c.torso_length m rotation person.shoulder person.hip).map Prod.snd := by
  unfold PersonDetector.on_image at hseen
  rw [hcamera] at hseen
  obtain rfl := Option.some.inj hseen
  dsimp only at htarget ⊢
  rw [htarget, hrotation]
  exact ⟨rfl, rfl⟩

noncomputable def real_hypot (x y : ℝ) : ℝ := √(x * x + y * y)

theorem real_hypot_exact : ExactHypot real_hypot where
  nonneg _ _ := Real.sqrt_nonneg _
  square x y := Real.mul_self_sqrt (add_nonneg (mul_self_nonneg x) (mul_self_nonneg y))

/-- Whatever the tilt, pan and roll of the camera and wherever the person stands in the image,
the detector reports the distance of the torso and publishes its midpoint. -/
theorem localisation_inverts_projection {n recent_size : Nat} {Id : Type} (c : Parameters ℝ)
    {m : CameraMatrix ℝ} (hfx : 0 < m.fx) (hfy : 0 < m.fy) {msg : ImageMsg ℝ n Id}
    (hunit : ∀ q, msg.rotation = some q → q.Unit) {rotation : Matrix (Fin 3) (Fin 3) ℝ}
    (hrotation : camera_rotation c msg.rotation = some rotation) {d : ℝ} {shoulder hip : Fin 3 → ℝ}
    (htorso : UprightTorso real_hypot c.torso_length d rotation shoulder hip)
    (hgap : 1e-3 < c.torso_length / d) {s : PersonDetector ℝ n recent_size Id}
    (hcamera : s.camera_matrix = some m) {seen : Seen ℝ n Id}
    (hseen : (s.on_image c real_hypot msg).1 = some seen)
    {person : Person ℝ n Id} (htarget : seen.target = some person)
    (hshoulder : person.shoulder = project m shoulder) (hhip : person.hip = project m hip) :
    seen.distance = some d ∧ seen.position = some fun i => (shoulder i + hip i) / 2 := by
  obtain ⟨hdistance, hposition⟩ := on_image_locates hcamera hseen htarget hrotation
  rw [hshoulder, hhip, locate_projected real_hypot_exact (camera_rotation_orthogonal hunit hrotation)
    hfx.ne' hfy.ne' htorso hgap] at hdistance hposition
  exact ⟨hdistance, hposition⟩

section Tilted
variable {K : Type} [Field K]

def tilted : Quaternion K := ⟨0.1, -0.1, 0.7, -0.7⟩

def lens : CameraMatrix K := ⟨500.0, 500.0, 320.0, 240.0⟩

def raised_shoulder : Fin 3 → K := ![-3, 3.73696, 1.47328]

def lowered_hip : Fin 3 → K := ![-3, 3.875, 1]

/-- Both shoulders and both hips at their midpoints, the wrists hidden. -/
def standing (joint : Fin 17) : Keypoint K :=
  if joint = LEFT_WRIST ∨ joint = RIGHT_WRIST then ⟨0, 0, 0⟩
  else
    let pixel := if joint < LEFT_HIP then project lens raised_shoulder else project lens lowered_hip
    ⟨pixel.1, pixel.2, 1⟩

def look_up : ImageMsg K 1 Unit where
  sec := 0
  nanosec := 0
  frame_id := "camera"
  width := 640
  rows := [⟨⟨0, 0, 640, 480⟩, 1, standing, some ![1], ()⟩]
  rotation := some tilted

def enrolled_one : PersonDetector K 1 30 Unit where
  camera_matrix := some lens
  gallery := { enrolled := [![1]] }

def on_foot : Person K 1 Unit where
  box := ⟨0, 0, 640, 480⟩
  keypoints := standing
  shoulder := project lens raised_shoulder
  hip := project lens lowered_hip
  embedding := ![1]
  who := ()

end Tilted

theorem tilted_torso : UprightTorso real_hypot person_follow_yaml.torso_length 5 (rotation_matrix tilted)
    raised_shoulder lowered_hip where
  upright := by
    ext i
    fin_cases i <;>
      norm_num [rotation_matrix, tilted, raised_shoulder, lowered_hip, Parameters.torso_length,
        person_follow_yaml, Matrix.mulVec, Matrix.vec3_dotProduct]
  horizontal := by
    apply real_hypot_exact.eq_of_square (by norm_num)
    norm_num [rotation_matrix, tilted, lowered_hip, Matrix.mulVec, Matrix.vec3_dotProduct]
  away := by norm_num
  shoulder_in_front := by
    show (0 : ℝ) < 1.47328
    norm_num
  hip_in_front := one_pos

theorem hidden_standing (joints : List (Fin 17)) :
    hidden person_follow_yaml (standing : Fin 17 → Keypoint ℝ) joints =
      joints.any fun joint => decide (joint = LEFT_WRIST ∨ joint = RIGHT_WRIST) := by
  unfold hidden
  congr 1
  funext joint
  unfold standing
  by_cases hwrist : joint = LEFT_WRIST ∨ joint = RIGHT_WRIST
  · norm_num [hwrist, person_follow_yaml]
  · norm_num [hwrist, person_follow_yaml]

theorem people_in_look_up : people_in person_follow_yaml (look_up : ImageMsg ℝ 1 Unit) = [on_foot] := by
  have hdetect : detect person_follow_yaml (look_up : ImageMsg ℝ 1 Unit) = look_up.rows := by
    norm_num [detect, look_up, person_follow_yaml]
  have htorso : torso person_follow_yaml (standing : Fin 17 → Keypoint ℝ) =
      some (project lens raised_shoulder, project lens lowered_hip) := by
    unfold torso
    rw [hidden_standing, if_neg (by decide)]
    unfold midpoint
    have hshoulder (joint : Fin 17) (h : joint = LEFT_SHOULDER ∨ joint = RIGHT_SHOULDER) :
        (standing joint : Keypoint ℝ) =
          ⟨(project lens raised_shoulder).1, (project lens raised_shoulder).2, 1⟩ := by
      rcases h with rfl | rfl <;> rfl
    have hhip (joint : Fin 17) (h : joint = LEFT_HIP ∨ joint = RIGHT_HIP) :
        (standing joint : Keypoint ℝ) =
          ⟨(project lens lowered_hip).1, (project lens lowered_hip).2, 1⟩ := by
      rcases h with rfl | rfl <;> rfl
    rw [hshoulder _ (.inl rfl), hshoulder _ (.inr rfl), hhip _ (.inl rfl), hhip _ (.inr rfl)]
    have htwo : (2.0 : ℝ) = 2 := by norm_num
    have hmean (x : ℝ) : (x + x) / 2.0 = x := by rw [htwo, add_self_div_two]
    simp only [hmean]
  unfold people_in
  rw [hdetect]
  unfold look_up
  rw [List.filterMap_cons]
  unfold candidate
  dsimp only
  rw [htorso]
  rfl

theorem nobody_raises : raising person_follow_yaml [(on_foot : Person ℝ 1 Unit)] = none := by
  have hdown : hands_up person_follow_yaml (on_foot : Person ℝ 1 Unit) = false := by
    unfold hands_up on_foot
    dsimp only
    rw [hidden_standing, if_pos (by decide)]
  unfold raising
  rw [List.filter_cons, hdown]
  rfl

theorem looks_alike : (PersonDetector.choose_target person_follow_yaml [(on_foot : Person ℝ 1 Unit)]
    (enrolled_one : PersonDetector ℝ 1 30 Unit).gallery).1 = some on_foot := by
  have halike : ((person_follow_yaml : Parameters ℝ).match_threshold : WithBot ℝ) ≤
      (enrolled_one : PersonDetector ℝ 1 30 Unit).gallery.similarity
        (on_foot : Person ℝ 1 Unit).embedding := by
    rw [Gallery.le_similarity_iff]
    refine ⟨![1], List.mem_cons_self, ?_⟩
    norm_num [person_follow_yaml, on_foot, dotProduct]
  unfold PersonDetector.choose_target
  rw [if_neg (by decide), List.argmax_singleton]
  dsimp only
  rw [if_pos halike]
  split <;> rfl

theorem target_on_foot : ∃ seen,
    ((enrolled_one : PersonDetector ℝ 1 30 Unit).on_image person_follow_yaml real_hypot look_up).1 =
      some seen ∧ seen.target = some on_foot := by
  refine ⟨_, rfl, ?_⟩
  show (PersonDetector.choose_target person_follow_yaml (people_in person_follow_yaml look_up)
    (PersonDetector.update_enrollment person_follow_yaml (people_in person_follow_yaml look_up) _ _).2.gallery).1 =
      some on_foot
  rw [people_in_look_up]
  unfold PersonDetector.update_enrollment
  rw [nobody_raises]
  exact looks_alike

theorem five_metres_away : ∃ seen,
    ((enrolled_one : PersonDetector ℝ 1 30 Unit).on_image person_follow_yaml real_hypot look_up).1 =
      some seen ∧
    seen.distance = some 5 ∧
    seen.position = some fun i => (raised_shoulder i + lowered_hip i) / 2 := by
  obtain ⟨seen, hseen, htarget⟩ := target_on_foot
  have hcamera : (enrolled_one : PersonDetector ℝ 1 30 Unit).camera_matrix = some lens := rfl
  have hunit : ∀ q, (look_up : ImageMsg ℝ 1 Unit).rotation = some q → q.Unit := by
    rintro _ ⟨⟩
    norm_num [Quaternion.Unit, tilted]
  have hrotation : camera_rotation person_follow_yaml (look_up : ImageMsg ℝ 1 Unit).rotation =
      some (rotation_matrix tilted) := if_neg (by decide)
  exact ⟨seen, hseen, localisation_inverts_projection person_follow_yaml (by norm_num [lens])
    (by norm_num [lens]) hunit hrotation tilted_torso
    (by norm_num [Parameters.torso_length, person_follow_yaml]) hcamera hseen htarget rfl rfl⟩

end IotRobot.Perception
