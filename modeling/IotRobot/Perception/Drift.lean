import IotRobot.Lib.UnitVectors
import IotRobot.Perception.PersonDetector

/-!
# Whom the gallery can drift to

A target is similar to a stored embedding, and what is stored was either captured at the
enrollment or learned from a target. Where learned embeddings can only be copies of stored
ones, every target is similar to a captured one. Otherwise two images are enough to get away
from all of them.
-/

namespace IotRobot.Perception.PersonDetector

open Lib Matrix

set_option autoImplicit false

section Steps
variable {K : Type} {n recent_size : Nat} {Id : Type} [Field K] [LinearOrder K]
variable (c : Parameters K)

/-- The encoder returns vectors of unit length. -/
def UnitCall : Call K n Id → Prop
  | .image msg => ∀ row ∈ msg.rows, ∀ embedding, row.embedding = some embedding → UnitLength embedding
  | _ => True

theorem candidate_embedding {row : Detection K n Id} {person : Person K n Id}
    (h : candidate c row = some person) : row.embedding = some person.embedding := by
  unfold candidate at h
  split at h
  · rename_i hembedding
    obtain rfl := Option.some.inj h
    exact hembedding
  · cases h

theorem people_in_unit {msg : ImageMsg K n Id} (h : UnitCall (.image msg)) :
    ∀ person ∈ people_in c msg, UnitLength person.embedding := by
  intro person hperson
  obtain ⟨row, hrow, hcandidate⟩ := List.mem_filterMap.mp hperson
  exact h row (List.mem_of_mem_filter hrow) _ (candidate_embedding c hcandidate)

/-- A target is in the image and similar enough to a stored embedding. Learning it takes a
larger similarity. -/
theorem choose_target_cases (people : List (Person K n Id)) (gallery : Gallery K n recent_size) :
    choose_target c people gallery = (none, gallery) ∨
    ∃ best ∈ people, c.match_threshold ≤ gallery.similarity best.embedding ∧
      (choose_target c people gallery = (some best, gallery) ∨
        c.update_threshold ≤ gallery.similarity best.embedding ∧
        choose_target c people gallery = (some best, gallery.add best.embedding)) := by
  unfold choose_target
  split
  · exact .inl rfl
  split
  · exact .inl rfl
  rename_i best hbest
  split
  · rename_i hmatch
    refine .inr ⟨best, List.argmax_mem hbest, hmatch, ?_⟩
    dsimp only
    split
    · rename_i hlearn
      exact .inr ⟨hlearn.1, rfl⟩
    · exact .inl rfl
  · exact .inl rfl

/-- The gallery keeps its embeddings in an update, or takes over those of the gesture. -/
theorem update_enrollment_cases (people : List (Person K n Id)) (stamp : K)
    (s : PersonDetector K n recent_size Id) :
    let s' := (s.update_enrollment c people stamp).2
    (s'.gallery = s.gallery ∨ s'.gallery = s.gallery.enroll s'.enroll_embeddings) ∧
    s'.people = s.people ∧
    ∀ embedding ∈ s'.enroll_embeddings,
      embedding ∈ s.enroll_embeddings ∨ ∃ person ∈ people, embedding = person.embedding := by
  dsimp only
  unfold update_enrollment
  cases hraising : raising c people with
  | none =>
    dsimp only
    unfold lower_hands
    split
    · split
      · exact ⟨.inl rfl, rfl, fun _ h => .inl h⟩
      · exact ⟨.inl rfl, rfl, fun _ h => .inl h⟩
    · exact ⟨.inl rfl, rfl, fun _ h => .inl h⟩
  | some person =>
    have hperson : person ∈ people := List.mem_of_mem_filter (List.argmax_mem hraising)
    have hembeddings : ∀ embedding ∈ (s.raise_hands person.embedding stamp).enroll_embeddings,
        embedding ∈ s.enroll_embeddings ∨ ∃ person ∈ people, embedding = person.embedding := by
      intro embedding hembedding
      rcases List.mem_append.mp hembedding with hold | hnew
      · cases hstart : s.enroll_start with
        | none =>
          rw [hstart] at hold
          cases hold
        | some start =>
          rw [hstart] at hold
          exact .inl hold
      · exact .inr ⟨person, hperson, List.mem_singleton.mp hnew⟩
    have hkept : (s.raise_hands person.embedding stamp).gallery = s.gallery ∧
        (s.raise_hands person.embedding stamp).people = s.people := by
      unfold raise_hands
      cases s.enroll_start <;> exact ⟨rfl, rfl⟩
    dsimp only
    split
    · refine ⟨.inr ?_, hkept.2, hembeddings⟩
      dsimp only
      rw [hkept.1]
    · exact ⟨.inl hkept.1, hkept.2, hembeddings⟩

/-- What can be learned is what is stored already: nothing fits, or the similarity it takes
leaves only equal vectors. -/
def CopiesOnly (n recent_size : Nat) : Prop :=
  recent_size = 0 ∨ ∀ a b : Embedding K n, UnitLength a → UnitLength b →
    c.update_threshold ≤ a ⬝ᵥ b → a = b

/-- What the detector holds has unit length, and what it learned was captured. -/
structure Anchored (s : PersonDetector K n recent_size Id) : Prop where
  people : ∀ person ∈ s.people, UnitLength person.embedding
  pending : ∀ embedding ∈ s.enroll_embeddings, UnitLength embedding
  enrolled : ∀ embedding ∈ s.gallery.enrolled, UnitLength embedding
  recent : ∀ embedding ∈ s.gallery.recent.items, embedding ∈ s.gallery.enrolled

variable {c} {s : PersonDetector K n recent_size Id}

omit [LinearOrder K] in
theorem Anchored.stored (h : Anchored s) {embedding : Embedding K n}
    (hstored : embedding ∈ s.gallery.stored) : embedding ∈ s.gallery.enrolled := by
  rcases List.mem_append.mp hstored with henrolled | hrecent
  · exact henrolled
  · exact h.recent embedding hrecent

omit [LinearOrder K] in
theorem Anchored.enroll (h : Anchored s) {embeddings : List (Embedding K n)}
    (hunit : ∀ embedding ∈ embeddings, UnitLength embedding) :
    Anchored { s with gallery := s.gallery.enroll embeddings } where
  people := h.people
  pending := h.pending
  enrolled := hunit
  recent := fun _ hmem => absurd hmem List.not_mem_nil

theorem Anchored.choose_target (h : Anchored s) (hcopies : CopiesOnly c n recent_size)
    {people : List (Person K n Id)} (hunit : ∀ person ∈ people, UnitLength person.embedding) :
    Anchored { s with gallery := (choose_target c people s.gallery).2 } := by
  rcases choose_target_cases c people s.gallery with hnone | ⟨best, hbest, -, hkept | ⟨hlearn, hadd⟩⟩
  · rw [hnone]
    exact h
  · rw [hkept]
    exact h
  rw [hadd]
  refine ⟨h.people, h.pending, h.enrolled, ?_⟩
  intro embedding hembedding
  rcases hcopies with hsize | hequal
  · subst hsize
    rw [Deque.items_of_zero] at hembedding
    cases hembedding
  rcases Deque.mem_append hembedding with hold | rfl
  · exact h.recent embedding hold
  -- the new look equals a stored one
  obtain ⟨other, hother, hsimilar⟩ := Gallery.le_similarity_iff.mp hlearn
  have henrolled := h.stored hother
  rw [← hequal other best.embedding (h.enrolled other henrolled) (hunit best hbest) hsimilar]
  exact henrolled

/-- An image up to the choice of the target. -/
theorem Anchored.update_enrollment (h : Anchored s) {msg : ImageMsg K n Id}
    (hunit : UnitCall (.image msg)) :
    Anchored (PersonDetector.update_enrollment c (people_in c msg) msg.stamp
      { s with people := people_in c msg, image_width := msg.width }).2 := by
  have hpeople := people_in_unit c hunit
  obtain ⟨hgallery, hkept, hpending⟩ := update_enrollment_cases c (people_in c msg) msg.stamp
    { s with people := people_in c msg, image_width := msg.width }
  generalize (PersonDetector.update_enrollment c (people_in c msg) msg.stamp
    { s with people := people_in c msg, image_width := msg.width }).2 = s' at *
  have hunits : ∀ embedding ∈ s'.enroll_embeddings, UnitLength embedding := by
    intro embedding hembedding
    rcases hpending embedding hembedding with hold | ⟨person, hperson, rfl⟩
    · exact h.pending embedding hold
    · exact hpeople person hperson
  dsimp only at hgallery hkept
  rw [← hkept] at hpeople
  rcases hgallery with hsame | henroll
  · exact ⟨hpeople, hunits, hsame ▸ h.enrolled, hsame ▸ h.recent⟩
  · exact ⟨hpeople, hunits, henroll ▸ hunits, henroll ▸ fun _ hmem => absurd hmem List.not_mem_nil⟩

variable (hypot : K → K → K)

theorem Anchored.perform (h : Anchored s) (hcopies : CopiesOnly c n recent_size)
    {call : Call K n Id} (hunit : UnitCall call) : Anchored (s.perform c hypot call) := by
  cases call with
  | camera_info k =>
    show Anchored (s.on_camera_info k)
    unfold on_camera_info
    split
    · exact ⟨h.people, h.pending, h.enrolled, h.recent⟩
    · exact h
  | enroll =>
    show Anchored s.on_enroll
    unfold on_enroll
    split
    · exact h
    · rename_i person hperson
      apply h.enroll
      intro embedding hembedding
      rw [List.mem_singleton.mp hembedding]
      exact h.people person (List.argmin_mem hperson)
  | forget => exact h.enroll fun _ hmem => absurd hmem List.not_mem_nil
  | image msg =>
    show Anchored (s.on_image c hypot msg).2
    cases hcamera : s.camera_matrix with
    | none =>
      unfold on_image
      rw [hcamera]
      exact h
    | some m =>
      obtain ⟨seen, s', hcall, hupdate, -⟩ := on_image_calibrated c hypot hcamera msg
      have hs' := h.update_enrollment (c := c) hunit
      rw [hupdate] at hs'
      rw [hcall]
      exact hs'.choose_target hcopies (people_in_unit c hunit)

theorem after_anchored (hcopies : CopiesOnly c n recent_size) {calls : List (Call K n Id)}
    (hunit : ∀ call ∈ calls, UnitCall call) :
    Anchored (after c hypot calls : PersonDetector K n recent_size Id) := by
  induction calls using List.reverseRecOn with
  | nil =>
    exact ⟨fun _ h => absurd h List.not_mem_nil, fun _ h => absurd h List.not_mem_nil,
      fun _ h => absurd h List.not_mem_nil, fun _ h => absurd h List.not_mem_nil⟩
  | append_singleton calls call ih =>
    unfold after
    rw [List.foldl_append]
    exact (ih fun call hcall => hunit call (List.mem_append_left _ hcall)).perform hypot hcopies
      (hunit call (List.mem_append_right _ List.mem_cons_self))

end Steps

section Law
variable (K : Type) [Field K] [LinearOrder K]

/-- Every target is similar to an embedding that was captured at the latest enrollment: whatever
is called before, with embeddings of unit length. Choosing the target leaves these as they are. -/
def NoDrift (c : Parameters K) (n recent_size : Nat) : Prop :=
  ∀ (Id : Type) (hypot : K → K → K) (calls : List (Call K n Id)) (call : Call K n Id),
    (∀ made ∈ calls ++ [call], UnitCall made) →
    ∀ person,
      (after c hypot calls : PersonDetector K n recent_size Id).target_of c hypot call = some person →
      ∃ embedding ∈ ((after c hypot calls : PersonDetector K n recent_size Id).perform c hypot
        call).gallery.enrolled, c.match_threshold ≤ embedding ⬝ᵥ person.embedding

end Law

section Kept
variable {K : Type} {n recent_size : Nat} {Id : Type} [Field K] [LinearOrder K]
variable {c : Parameters K}

theorem choose_target_enrolled (people : List (Person K n Id)) (gallery : Gallery K n recent_size) :
    (choose_target c people gallery).2.enrolled = gallery.enrolled := by
  rcases choose_target_cases c people gallery with h | ⟨best, -, -, h | ⟨-, h⟩⟩
  · rw [h]
  · rw [h]
  · rw [h]
    rfl

theorem no_drift_of_copies (hcopies : CopiesOnly c n recent_size) : NoDrift K c n recent_size := by
  intro Id hypot calls call hunit person htarget
  have hanchored : Anchored (after c hypot calls : PersonDetector K n recent_size Id) :=
    after_anchored hypot hcopies fun call hcall => hunit call (List.mem_append_left _ hcall)
  have hcall := hunit call (List.mem_append_right _ List.mem_cons_self)
  generalize (after c hypot calls : PersonDetector K n recent_size Id) = s at htarget hanchored ⊢
  cases call with
  | camera_info k => cases htarget
  | enroll => cases htarget
  | forget => cases htarget
  | image msg =>
    cases hcamera : s.camera_matrix with
    | none =>
      unfold target_of on_image at htarget
      rw [hcamera] at htarget
      cases htarget
    | some m =>
      obtain ⟨seen, s', himage, hupdate, hseen⟩ :=
        on_image_calibrated c hypot hcamera msg
      have hs' := hanchored.update_enrollment (c := c) hcall
      rw [hupdate] at hs'
      have hchosen : (choose_target c (people_in c msg) s'.gallery).1 = some person := by
        rw [← hseen, ← htarget]
        show seen.target = (s.on_image c hypot msg).1.bind Seen.target
        rw [himage]
        rfl
      have hkept : (s.perform c hypot (.image msg)).gallery.enrolled = s'.gallery.enrolled := by
        show (s.on_image c hypot msg).2.gallery.enrolled = _
        rw [himage]
        exact choose_target_enrolled _ _
      rw [hkept]
      rcases choose_target_cases c (people_in c msg) s'.gallery with
        hnone | ⟨best, -, hmatch, hbest | ⟨-, hbest⟩⟩
      · rw [hnone] at hchosen
        cases hchosen
      all_goals
        rw [hbest] at hchosen
        obtain rfl := Option.some.inj hchosen
        obtain ⟨other, hother, hsimilar⟩ := Gallery.le_similarity_iff.mp hmatch
        exact ⟨other, hs'.stored hother, hsimilar⟩

end Kept

section Chain
variable {n recent_size : Nat} (c : Parameters ℝ)

/-- A visible torso and a hidden wrist. -/
noncomputable def posing (joint : Fin 17) : Keypoint ℝ where
  x := 0
  y := 0
  visibility := if joint = LEFT_WRIST then c.keypoint_threshold - 1 else c.keypoint_threshold

/-- An image of one person. -/
noncomputable def portrait (embedding : Embedding ℝ n) : ImageMsg ℝ n Unit where
  sec := 0
  nanosec := 0
  frame_id := "camera"
  width := 640
  rows := [⟨⟨0, 0, 0, 0⟩, c.score_threshold + 1, posing c, some embedding, ()⟩]
  rotation := none

noncomputable def sitter (embedding : Embedding ℝ n) : Person ℝ n Unit where
  box := ⟨0, 0, 0, 0⟩
  keypoints := posing c
  shoulder := (0, 0)
  hip := (0, 0)
  embedding := embedding
  who := ()

theorem people_in_portrait (embedding : Embedding ℝ n) :
    people_in c (portrait c embedding) = [sitter c embedding] := by
  have hdetect : detect c (portrait c embedding) = (portrait c embedding).rows := by
    unfold detect portrait
    rw [List.filter_cons_of_pos (by simp), List.filter_nil]
  have htorso : torso c (posing c) = some ((0, 0), (0, 0)) := by
    have hvisible : hidden c (posing c) [LEFT_SHOULDER, RIGHT_SHOULDER, LEFT_HIP, RIGHT_HIP] =
        false := by
      simp [hidden, posing, LEFT_WRIST, LEFT_SHOULDER, RIGHT_SHOULDER, LEFT_HIP, RIGHT_HIP]
    unfold torso
    rw [hvisible]
    simp [midpoint, posing]
  unfold people_in
  rw [hdetect]
  unfold portrait
  rw [List.filterMap_cons]
  unfold candidate
  dsimp only
  rw [htorso]
  rfl

theorem sitter_lowered (embedding : Embedding ℝ n) : raising c [sitter c embedding] = none := by
  have hdown : hands_up c (sitter c embedding) = false := by
    unfold hands_up
    rw [if_pos]
    simp [hidden, sitter, posing]
  unfold raising
  rw [List.filter_cons_of_neg (by rw [hdown]; exact Bool.false_ne_true)]
  rfl

/-- A portrait only looks for the target. -/
theorem on_portrait (hypot : ℝ → ℝ → ℝ) {s : PersonDetector ℝ n recent_size Unit}
    {m : CameraMatrix ℝ} (hcamera : s.camera_matrix = some m) (hstart : s.enroll_start = none)
    (embedding : Embedding ℝ n) :
    s.perform c hypot (.image (portrait c embedding)) =
      { s with
        people := [sitter c embedding]
        image_width := 640
        gallery := (choose_target c [sitter c embedding] s.gallery).2 } ∧
    s.target_of c hypot (.image (portrait c embedding)) =
      (choose_target c [sitter c embedding] s.gallery).1 := by
  obtain ⟨seen, s', himage, hupdate, hseen⟩ :=
    on_image_calibrated c hypot hcamera (portrait c embedding)
  rw [people_in_portrait] at himage hupdate hseen
  have hidle (stamp : ℝ) (width : Nat) :
      lower_hands stamp { s with people := [sitter c embedding], image_width := width } =
        { s with people := [sitter c embedding], image_width := width } := by
    unfold lower_hands
    dsimp only
    rw [hstart]
  unfold update_enrollment at hupdate
  rw [sitter_lowered] at hupdate
  dsimp only at hupdate
  rw [hidle] at hupdate
  obtain ⟨-, rfl⟩ := Prod.mk.inj hupdate
  constructor
  · show (s.on_image c hypot (portrait c embedding)).2 = _
    rw [himage]
    rfl
  · show (s.on_image c hypot (portrait c embedding)).1.bind Seen.target = _
    rw [himage]
    exact hseen

variable {c}

/-- Who is alone in an image and similar enough is the target, and is learned if more similar. -/
theorem choose_sitter (gallery : Gallery ℝ n recent_size) (henrolled : gallery.enrolled ≠ [])
    {embedding : Embedding ℝ n} (h : c.match_threshold ≤ gallery.similarity embedding) :
    choose_target c [sitter c embedding] gallery =
      (some (sitter c embedding),
        if c.update_threshold ≤ gallery.similarity embedding then gallery.add embedding
        else gallery) := by
  have hmatch : (c.match_threshold : WithBot ℝ) ≤ gallery.similarity (sitter c embedding).embedding := h
  have halike : [sitter c embedding].countP (fun person =>
      decide ((c.match_threshold : WithBot ℝ) ≤ gallery.similarity person.embedding)) = 1 := by
    rw [List.countP_cons_of_pos (by rw [decide_eq_true_eq]; exact hmatch), List.countP_nil]
  unfold choose_target
  rw [if_neg (by rw [List.isEmpty_iff]; exact henrolled), List.argmax_singleton]
  dsimp only
  rw [if_pos hmatch, halike]
  by_cases hlearn : (c.update_threshold : WithBot ℝ) ≤ gallery.similarity embedding
  · rw [if_pos hlearn, if_pos ⟨hlearn, rfl⟩]
    rfl
  · rw [if_neg hlearn, if_neg fun hboth => hlearn hboth.1]

/-- The node after an image of one person and the enroll service. -/
noncomputable def captured (c : Parameters ℝ) (first : Embedding ℝ n) :
    PersonDetector ℝ n recent_size Unit where
  camera_matrix := some ⟨1, 1, 1, 1⟩
  gallery := { enrolled := [first] }
  people := [sitter c first]
  image_width := 640

theorem after_captured (c : Parameters ℝ) (hypot : ℝ → ℝ → ℝ) (first : Embedding ℝ n) :
    (after c hypot [.camera_info fun _ => 1, .image (portrait c first), .enroll] :
      PersonDetector ℝ n recent_size Unit) = captured c first := by
  have hcamera : (({} : PersonDetector ℝ n recent_size Unit).perform c hypot
      (.camera_info fun _ => 1)) = { camera_matrix := some ⟨1, 1, 1, 1⟩ } := by
    show on_camera_info (fun _ => 1) {} = _
    unfold on_camera_info
    rw [if_pos (by norm_num)]
  unfold after
  rw [List.foldl_cons, hcamera, List.foldl_cons, (on_portrait c hypot (m := ⟨1, 1, 1, 1⟩) rfl rfl first).1]
  unfold List.foldl perform on_enroll
  dsimp only
  rw [List.argmin_singleton]
  rfl

/-- The node after an image of a second look that it learned. -/
noncomputable def learned (c : Parameters ℝ) (first second : Embedding ℝ n) :
    PersonDetector ℝ n recent_size Unit where
  camera_matrix := some ⟨1, 1, 1, 1⟩
  gallery := ({ enrolled := [first] } : Gallery ℝ n recent_size).add second
  people := [sitter c second]
  image_width := 640

/-- An image of one person, the enroll service, and an image of a second look. -/
noncomputable def two_looks (c : Parameters ℝ) (first second : Embedding ℝ n) : List (Call ℝ n Unit) :=
  [.camera_info fun _ => 1, .image (portrait c first), .enroll, .image (portrait c second)]

theorem after_learned (hypot : ℝ → ℝ → ℝ) {first second : Embedding ℝ n}
    (hmu : c.match_threshold ≤ c.update_threshold) (h : c.update_threshold ≤ first ⬝ᵥ second) :
    (after c hypot (two_looks c first second) : PersonDetector ℝ n recent_size Unit) =
      learned c first second := by
  have hlooks : c.update_threshold ≤
      (captured c first : PersonDetector ℝ n recent_size Unit).gallery.similarity second :=
    Gallery.le_similarity_iff.mpr ⟨first, List.mem_cons_self, h⟩
  have hlearn := choose_sitter (c := c)
    (captured c first : PersonDetector ℝ n recent_size Unit).gallery
    (List.cons_ne_nil _ _) (le_trans (WithBot.coe_le_coe.mpr hmu) hlooks)
  rw [if_pos hlooks] at hlearn
  have hafter : (after c hypot [.camera_info fun _ => 1, .image (portrait c first), .enroll] :
      PersonDetector ℝ n recent_size Unit) = captured c first := after_captured c hypot first
  have hcalls : two_looks c first second =
      [.camera_info fun _ => 1, .image (portrait c first), .enroll] ++ [.image (portrait c second)] := rfl
  unfold after at hafter ⊢
  rw [hcalls, List.foldl_append, hafter, List.foldl_cons, List.foldl_nil,
    (on_portrait c hypot rfl rfl second).1, hlearn]
  rfl

theorem unit_portrait {look : Embedding ℝ n} (h : UnitLength look) :
    UnitCall (.image (portrait c look)) := by
  intro row hrow embedding hembedding
  rw [List.mem_singleton.mp hrow] at hembedding
  obtain rfl := Option.some.inj hembedding
  exact h

/-- Two images after an enrollment the target can be farther from what was captured than a
target may be. -/
theorem drifts (hm : 0 < c.match_threshold) (hmu : c.match_threshold ≤ c.update_threshold)
    (hu : c.update_threshold < 1) (hsize : 0 < recent_size) : ¬ NoDrift ℝ c (n + 2) recent_size := by
  intro hlaw
  obtain ⟨first, second, third, hfirst, hsecond, hthird, hlearned, hmatched, hfar⟩ :=
    two_steps_farther (n := n) hm hmu hu
  have hunit : ∀ made ∈ two_looks c first second ++ [.image (portrait c third)], UnitCall made := by
    unfold two_looks
    simp only [List.cons_append, List.nil_append, List.forall_mem_cons]
    exact ⟨trivial, unit_portrait hfirst, trivial, unit_portrait hsecond, unit_portrait hthird,
      fun _ h => absurd h List.not_mem_nil⟩
  -- the third look is as similar to the learned one as a target must be
  have hmatch : c.match_threshold ≤
      (learned c first second : PersonDetector ℝ (n + 2) recent_size Unit).gallery.similarity third := by
    refine Gallery.le_similarity_iff.mpr ⟨second, ?_, hmatched.ge⟩
    exact List.mem_append_right _ (Deque.mem_append_self _ _ hsize)
  have hchoose := choose_sitter (c := c)
    (learned c first second : PersonDetector ℝ (n + 2) recent_size Unit).gallery
    (List.cons_ne_nil _ _) hmatch
  have hthird := on_portrait c (fun _ _ => 0)
    (s := (learned c first second : PersonDetector ℝ (n + 2) recent_size Unit)) rfl rfl third
  have hkept := hlaw Unit (fun _ _ => 0) (two_looks c first second) (.image (portrait c third)) hunit
    (sitter c third)
  rw [after_learned _ hmu hlearned.ge, hthird.1, hthird.2, hchoose] at hkept
  obtain ⟨embedding, hembedding, hnear⟩ := hkept rfl
  have henrolled : embedding ∈ [first] := by
    split at hembedding <;> exact hembedding
  rw [List.mem_singleton.mp henrolled] at hnear
  exact absurd hnear (not_le.mpr hfar)

/-- The gallery cannot drift exactly where nothing is learned, learning takes equality, or looks
have no room to differ. -/
theorem no_drift_iff (c : Parameters ℝ) (n recent_size : Nat) (hm : 0 < c.match_threshold)
    (hmu : c.match_threshold ≤ c.update_threshold) (hu : c.update_threshold ≤ 1) :
    NoDrift ℝ c n recent_size ↔ recent_size = 0 ∨ c.update_threshold = 1 ∨ n ≤ 1 := by
  constructor
  · intro hlaw
    by_contra hnone
    obtain ⟨hsize, hless, hn⟩ : recent_size ≠ 0 ∧ c.update_threshold ≠ 1 ∧ ¬ n ≤ 1 := by
      tauto
    obtain ⟨k, rfl⟩ := Nat.exists_eq_add_of_le' (Nat.lt_of_not_le hn)
    exact drifts hm hmu (lt_of_le_of_ne hu hless) (Nat.pos_of_ne_zero hsize) hlaw
  · rintro (hsize | hone | hn)
    · exact no_drift_of_copies (.inl hsize)
    · apply no_drift_of_copies (.inr _)
      intro a b ha hb hab
      rw [hone] at hab
      exact eq_of_one_le_dotProduct ha hb hab
    · apply no_drift_of_copies (.inr _)
      intro a b ha hb hab
      exact eq_of_pos_dotProduct hn ha hb ((hm.trans_le hmu).trans_le hab)

/-- With the values of `person_follow.yaml` it can. -/
theorem default_gallery_drifts : ¬ NoDrift ℝ person_follow_yaml 512 30 := by
  intro hlaw
  have hnone := (no_drift_iff person_follow_yaml 512 30 (by norm_num [person_follow_yaml])
    (by norm_num [person_follow_yaml]) (by norm_num [person_follow_yaml])).mp hlaw
  norm_num [person_follow_yaml] at hnone

end Chain

section Example

def view (x y : Rat) : Call Rat 2 Unit := .image
  { sec := 0
    nanosec := 0
    frame_id := "camera"
    width := 640
    rows := [⟨⟨0, 0, 640, 480⟩, 1, fun joint => ⟨0, 0, if joint = LEFT_WRIST then 0 else 1⟩,
      some ![x, y], ()⟩]
    rotation := none }

/-- Somebody is enrolled and turns; a look of similarity 15/17 is learned. -/
def turning : List (Call Rat 2 Unit) :=
  [.camera_info fun _ => 1, view 1 0, .enroll, view (15 / 17) (8 / 17)]

/-- Turned by as much again, somebody of similarity 0.56 is the target. -/
theorem turned_too_far : (∀ made ∈ turning ++ [view (161 / 289) (240 / 289)], UnitCall made) ∧
    ∃ person,
      (after person_follow_yaml (fun _ _ => 0) turning : PersonDetector Rat 2 30 Unit).target_of
        person_follow_yaml (fun _ _ => 0) (view (161 / 289) (240 / 289)) = some person ∧
      ∀ embedding ∈ ((after person_follow_yaml (fun _ _ => 0) turning :
        PersonDetector Rat 2 30 Unit).perform person_follow_yaml (fun _ _ => 0)
          (view (161 / 289) (240 / 289))).gallery.enrolled,
        embedding ⬝ᵥ person.embedding < person_follow_yaml.match_threshold := by
  have hunit (x y : Rat) (h : ![x, y] ⬝ᵥ ![x, y] = 1) : UnitCall (view x y) := by
    intro row hrow embedding hembedding
    rw [List.mem_singleton.mp hrow] at hembedding
    obtain rfl := Option.some.inj hembedding
    exact h
  refine ⟨?_, ?_⟩
  · unfold turning
    simp only [List.cons_append, List.nil_append, List.forall_mem_cons]
    exact ⟨trivial, hunit _ _ (by decide +kernel), trivial, hunit _ _ (by decide +kernel),
      hunit _ _ (by decide +kernel), fun _ h => absurd h List.not_mem_nil⟩
  have htarget : ((after person_follow_yaml (fun _ _ => 0) turning :
      PersonDetector Rat 2 30 Unit).target_of person_follow_yaml (fun _ _ => 0)
        (view (161 / 289) (240 / 289))).map Person.embedding = some ![161 / 289, 240 / 289] := by
    decide +kernel
  obtain ⟨person, hperson, hembedding⟩ := Option.map_eq_some_iff.mp htarget
  refine ⟨person, hperson, ?_⟩
  rw [hembedding]
  decide +kernel

end Example

end IotRobot.Perception.PersonDetector
