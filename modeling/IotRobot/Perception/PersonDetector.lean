import IotRobot.Perception.Reid
import Mathlib.LinearAlgebra.Matrix.Notation

/-!
# The person detector

`PersonDetector` of `person_detector.py` in exact arithmetic. What the pose model and the
appearance encoder make of the pixels comes with the image, and so does what tf answers.
-/

namespace IotRobot.Perception

open Lib Matrix

set_option autoImplicit false

section Records
variable (K : Type)

structure Keypoint where
  x : K
  y : K
  visibility : K

structure Box where
  x1 : K
  y1 : K
  x2 : K
  y2 : K

/-- A `geometry_msgs` quaternion. -/
structure Quaternion where
  x : K
  y : K
  z : K
  w : K

structure CameraMatrix where
  fx : K
  fy : K
  cx : K
  cy : K

/-- A row of the pose model in image pixels, with what `embed` returns for its box. Whose body
it is, `who`, is known to no function. -/
structure Detection (n : Nat) (Id : Type) where
  box : Box K
  score : K
  keypoints : Fin 17 → Keypoint K
  embedding : Option (Embedding K n)
  who : Id

/-- A detected person whose torso is visible. -/
structure Person (n : Nat) (Id : Type) where
  box : Box K
  keypoints : Fin 17 → Keypoint K
  shoulder : K × K
  hip : K × K
  embedding : Embedding K n
  who : Id

/-- An image, and the rotation from its frame to the level frame if tf knows it. -/
structure ImageMsg (n : Nat) (Id : Type) where
  sec : Int
  nanosec : Nat
  frame_id : String
  width : Nat
  rows : List (Detection K n Id)
  rotation : Option (Quaternion K)

structure Parameters where
  score_threshold : K
  keypoint_threshold : K
  person_height : K
  torso_ratio : K
  level_frame : String
  match_threshold : K
  update_threshold : K
  enroll_duration : K

/-- The status line. -/
inductive Status where
  | enrolling (elapsed duration : K)
  | nobody_enrolled
  | following
  | not_in_view

/-- What a call of `on_image` decided and published. -/
structure Seen (n : Nat) (Id : Type) where
  enrolled : Option (List (Embedding K n))
  target : Option (Person K n Id)
  distance : Option K
  position : Option (Fin 3 → K)
  status : Status K

end Records

/-- The values of `person_follow.yaml`. -/
def person_follow_yaml {K : Type} [Field K] : Parameters K where
  score_threshold := 0.4
  keypoint_threshold := 0.5
  person_height := 1.70
  torso_ratio := 0.29
  level_frame := "base_link"
  match_threshold := 0.75
  update_threshold := 0.85
  enroll_duration := 2.0

section Keypoints
variable {K : Type} {n : Nat} {Id : Type} [Field K] [LinearOrder K] (c : Parameters K)

def LEFT_WRIST : Fin 17 := 9
def RIGHT_WRIST : Fin 17 := 10
def LEFT_SHOULDER : Fin 17 := 5
def RIGHT_SHOULDER : Fin 17 := 6
def LEFT_HIP : Fin 17 := 11
def RIGHT_HIP : Fin 17 := 12

/-- The header's time in seconds. -/
def ImageMsg.stamp (msg : ImageMsg K n Id) : K := msg.sec + msg.nanosec * 1e-9

def midpoint (a b : Keypoint K) : K × K := ((a.x + b.x) / 2.0, (a.y + b.y) / 2.0)

def hidden (keypoints : Fin 17 → Keypoint K) (joints : List (Fin 17)) : Bool :=
  joints.any fun joint => decide ((keypoints joint).visibility < c.keypoint_threshold)

/-- The shoulder and hip midpoints, unless one of the joints is hidden. -/
def torso (keypoints : Fin 17 → Keypoint K) : Option ((K × K) × (K × K)) :=
  if hidden c keypoints [LEFT_SHOULDER, RIGHT_SHOULDER, LEFT_HIP, RIGHT_HIP] then none
  else some (midpoint (keypoints LEFT_SHOULDER) (keypoints RIGHT_SHOULDER),
    midpoint (keypoints LEFT_HIP) (keypoints RIGHT_HIP))

/-- Both wrists are well above the shoulders; image y grows downwards. -/
def hands_up (person : Person K n Id) : Bool :=
  if hidden c person.keypoints [LEFT_WRIST, RIGHT_WRIST] then false
  else
    let torso_pixels := person.hip.2 - person.shoulder.2
    [LEFT_WRIST, RIGHT_WRIST].all fun wrist =>
      decide (0.5 * torso_pixels < person.shoulder.2 - (person.keypoints wrist).y)

def area (person : Person K n Id) : K :=
  (person.box.x2 - person.box.x1) * (person.box.y2 - person.box.y1)

def detect (msg : ImageMsg K n Id) : List (Detection K n Id) :=
  msg.rows.filter fun row => decide (c.score_threshold < row.score)

/-- Distance needs the torso, so only people with a visible torso are candidates. -/
def candidate (row : Detection K n Id) : Option (Person K n Id) :=
  match torso c row.keypoints, row.embedding with
  | some (shoulder, hip), some embedding =>
    some ⟨row.box, row.keypoints, shoulder, hip, embedding, row.who⟩
  | _, _ => none

def people_in (msg : ImageMsg K n Id) : List (Person K n Id) := (detect c msg).filterMap (candidate c)

/-- The largest of the people with raised hands. -/
def raising (people : List (Person K n Id)) : Option (Person K n Id) :=
  (people.filter (hands_up c)).argmax area

end Keypoints

section Localisation
variable {K : Type} [Field K] [LinearOrder K]

/-- Optical frame (x right, y down, z forward) to a level frame (x forward, y left, z up). -/
def OPTICAL_TO_LEVEL : Matrix (Fin 3) (Fin 3) K := !![0, 0, 1; -1, 0, 0; 0, -1, 0]

def rotation_matrix (q : Quaternion K) : Matrix (Fin 3) (Fin 3) K :=
  let ⟨x, y, z, w⟩ := q
  !![1 - 2.0 * (y * y + z * z), 2.0 * (x * y - z * w), 2.0 * (x * z + y * w);
    2.0 * (x * y + z * w), 1 - 2.0 * (x * x + z * z), 2.0 * (y * z - x * w);
    2.0 * (x * z - y * w), 2.0 * (y * z + x * w), 1 - 2.0 * (x * x + y * y)]

def Parameters.torso_length (c : Parameters K) : K := c.person_height * c.torso_ratio

/-- The rotation from the camera's optical frame to the level frame. -/
def camera_rotation (c : Parameters K) (transform : Option (Quaternion K)) :
    Option (Matrix (Fin 3) (Fin 3) K) :=
  if c.level_frame = "" then some OPTICAL_TO_LEVEL else transform.map rotation_matrix

/-- What the pinhole camera does: the pixel of a point of the optical frame. -/
def project (m : CameraMatrix K) (p : Fin 3 → K) : K × K :=
  (m.fx * (p 0 / p 2) + m.cx, m.fy * (p 1 / p 2) + m.cy)

/-- The ray from the camera through a pixel, rotated so that z is up. -/
def level_ray (m : CameraMatrix K) (rotation : Matrix (Fin 3) (Fin 3) K) (pixel : K × K) :
    Fin 3 → K :=
  rotation *ᵥ ![(pixel.1 - m.cx) / m.fx, (pixel.2 - m.cy) / m.fy, 1.0]

/-- The horizontal distance of an upright torso, and its centre in the camera's frame. -/
def locate (hypot : K → K → K) (torso_length : K) (m : CameraMatrix K)
    (rotation : Matrix (Fin 3) (Fin 3) K) (shoulder hip : K × K) : Option (K × (Fin 3 → K)) :=
  let shoulder_ray := level_ray m rotation shoulder
  let hip_ray := level_ray m rotation hip
  let shoulder_flat := hypot (shoulder_ray 0) (shoulder_ray 1)
  let hip_flat := hypot (hip_ray 0) (hip_ray 1)
  let elevation_gap := shoulder_ray 2 / shoulder_flat - hip_ray 2 / hip_flat
  if 1e-3 < elevation_gap then
    let distance := torso_length / elevation_gap
    let centre := fun i => (shoulder_ray i / shoulder_flat + hip_ray i / hip_flat) / 2.0 * distance
    some (distance, rotationᵀ *ᵥ centre)
  else none

end Localisation

structure PersonDetector (K : Type) (n recent_size : Nat) (Id : Type) where
  camera_matrix : Option (CameraMatrix K) := none
  gallery : Gallery K n recent_size := {}
  /-- The time of the image in which both hands went up. -/
  enroll_start : Option K := none
  /-- The time of the latest image with raised hands. -/
  hands_last_up : Option K := none
  enroll_embeddings : List (Embedding K n) := []
  people : List (Person K n Id) := []
  image_width : Nat := 0

namespace PersonDetector
variable {K : Type} {n recent_size : Nat} {Id : Type} [Field K] [LinearOrder K]
variable (c : Parameters K)

/-- An uncalibrated camera publishes an all-zero matrix. -/
def on_camera_info (k : Fin 9 → K) (s : PersonDetector K n recent_size Id) :
    PersonDetector K n recent_size Id :=
  if 0.0 < k 0 then { s with camera_matrix := some ⟨k 0, k 4, k 2, k 5⟩ } else s

/-- Without a gesture, enroll whoever is nearest the image centre. -/
def on_enroll (s : PersonDetector K n recent_size Id) : PersonDetector K n recent_size Id :=
  match s.people.argmin fun person =>
      |(person.box.x1 + person.box.x2) / 2.0 - (s.image_width : K) / 2.0| with
  | none => s
  | some person => { s with gallery := s.gallery.enroll [person.embedding] }

def on_forget (s : PersonDetector K n recent_size Id) : PersonDetector K n recent_size Id :=
  { s with gallery := s.gallery.clear }

/-- An image without raised hands forgives a single missed detection before it cancels. -/
def lower_hands (stamp : K) (s : PersonDetector K n recent_size Id) :
    PersonDetector K n recent_size Id :=
  match s.enroll_start, s.hands_last_up with
  | some _, some hands_last_up =>
    if 0.5 < stamp - hands_last_up then { s with enroll_start := none } else s
  | _, _ => s

/-- Every frame of the gesture adds a slightly different view. -/
def raise_hands (embedding : Embedding K n) (stamp : K) (s : PersonDetector K n recent_size Id) :
    PersonDetector K n recent_size Id :=
  let s := if s.enroll_start.isNone then
    { s with enroll_start := some stamp, enroll_embeddings := [] } else s
  { s with
    hands_last_up := some stamp
    enroll_embeddings := s.enroll_embeddings ++ [embedding] }

/-- Enroll the person who keeps both hands raised. Returns what the gallery enrolls. -/
def update_enrollment (people : List (Person K n Id)) (stamp : K)
    (s : PersonDetector K n recent_size Id) :
    Option (List (Embedding K n)) × PersonDetector K n recent_size Id :=
  match raising c people with
  | none => (none, s.lower_hands stamp)
  | some person =>
    let s := s.raise_hands person.embedding stamp
    if c.enroll_duration ≤ stamp - s.enroll_start.getD stamp then
      (some s.enroll_embeddings,
        { s with gallery := s.gallery.enroll s.enroll_embeddings, enroll_start := none })
    else (none, s)

/-- The person who looks most like the enrolled one, if they look enough alike. Their look is
learned only when nobody else could be mistaken for them. -/
def choose_target (people : List (Person K n Id)) (gallery : Gallery K n recent_size) :
    Option (Person K n Id) × Gallery K n recent_size :=
  if gallery.enrolled.isEmpty then (none, gallery)
  else
    match people.argmax fun person => gallery.similarity person.embedding with
    | none => (none, gallery)
    | some best =>
      if c.match_threshold ≤ gallery.similarity best.embedding then
        let alike := people.countP fun person =>
          decide (c.match_threshold ≤ gallery.similarity person.embedding)
        if c.update_threshold ≤ gallery.similarity best.embedding ∧ alike = 1 then
          (some best, gallery.add best.embedding)
        else (some best, gallery)
      else (none, gallery)

def status (target : Option (Person K n Id)) (stamp : K) (s : PersonDetector K n recent_size Id) :
    Status K :=
  match s.enroll_start with
  | some enroll_start => .enrolling (stamp - enroll_start) c.enroll_duration
  | none =>
    if s.gallery.enrolled.isEmpty then .nobody_enrolled
    else if target.isSome then .following else .not_in_view

/-- An image, `none` while the camera is not calibrated. -/
def on_image (hypot : K → K → K) (msg : ImageMsg K n Id) (s : PersonDetector K n recent_size Id) :
    Option (Seen K n Id) × PersonDetector K n recent_size Id :=
  match s.camera_matrix with
  | none => (none, s)
  | some m =>
    let people := people_in c msg
    let s := { s with people := people, image_width := msg.width }
    let (enrolled, s) := s.update_enrollment c people msg.stamp
    let (target, gallery) := choose_target c people s.gallery
    let s := { s with gallery := gallery }
    let located := do
      let person ← target
      let rotation ← camera_rotation c msg.rotation
      locate hypot c.torso_length m rotation person.shoulder person.hip
    (some
      { enrolled := enrolled
        target := target
        distance := located.map Prod.fst
        position := located.map Prod.snd
        status := s.status c target msg.stamp }, s)

/-- What an image of a calibrated camera leads to: first the gesture, then the target. -/
theorem on_image_calibrated (hypot : K → K → K) {s : PersonDetector K n recent_size Id}
    {m : CameraMatrix K} (hcamera : s.camera_matrix = some m) (msg : ImageMsg K n Id) :
    ∃ seen s', s.on_image c hypot msg =
      (some seen, { s' with gallery := (choose_target c (people_in c msg) s'.gallery).2 }) ∧
      update_enrollment c (people_in c msg) msg.stamp
        { s with people := people_in c msg, image_width := msg.width } = (seen.enrolled, s') ∧
      seen.target = (choose_target c (people_in c msg) s'.gallery).1 := by
  unfold on_image
  rw [hcamera]
  exact ⟨_, _, rfl, rfl, rfl⟩

/-- A message or a service call. -/
inductive Call (K : Type) (n : Nat) (Id : Type) where
  | camera_info (k : Fin 9 → K)
  | image (msg : ImageMsg K n Id)
  | enroll
  | forget

variable (hypot : K → K → K)

def perform (s : PersonDetector K n recent_size Id) : Call K n Id → PersonDetector K n recent_size Id
  | .camera_info k => s.on_camera_info k
  | .image msg => (s.on_image c hypot msg).2
  | .enroll => s.on_enroll
  | .forget => s.on_forget

/-- The node after the calls. -/
def after (calls : List (Call K n Id)) : PersonDetector K n recent_size Id :=
  calls.foldl (perform c hypot) {}

/-- The image that a call processes. -/
def processed (s : PersonDetector K n recent_size Id) : Call K n Id → Option (ImageMsg K n Id)
  | .image msg => s.camera_matrix.map fun _ => msg
  | _ => none

/-- The images that the calls process. -/
def processed_images : PersonDetector K n recent_size Id → List (Call K n Id) →
    List (ImageMsg K n Id)
  | _, [] => []
  | s, call :: calls => (s.processed call).toList ++ processed_images (s.perform c hypot call) calls

/-- What `update_enrollment` hands to the gallery. -/
def enrolled_by (s : PersonDetector K n recent_size Id) :
    Call K n Id → Option (List (Embedding K n))
  | .image msg => (s.on_image c hypot msg).1.bind Seen.enrolled
  | _ => none

/-- The target that a call chooses. -/
def target_of (s : PersonDetector K n recent_size Id) : Call K n Id → Option (Person K n Id)
  | .image msg => (s.on_image c hypot msg).1.bind Seen.target
  | _ => none

end PersonDetector

end IotRobot.Perception
