import IotRobot.Lib.Streaks
import IotRobot.Perception.PersonDetector

/-!
# Enrollment by gesture

Which images an enrollment is made of. The images with raised hands since `enroll_start`, and
the ones between, are a streak that only an image without raised hands can break. So neither
the gaps of a gesture nor the person who makes it are what the streak itself keeps.
-/

namespace IotRobot.Perception

open Lib

set_option autoImplicit false

variable {K : Type} {n recent_size : Nat} {Id : Type} [Field K] [LinearOrder K]
variable (c : Parameters K) (hypot : K → K → K)

/-- The person whose raised hands an image shows. -/
def shown (msg : ImageMsg K n Id) : Option (Person K n Id) := raising c (people_in c msg)

/-- Somebody has both hands up. -/
def raised (msg : ImageMsg K n Id) : Bool := (shown c msg).isSome

/-- `msg` breaks a gesture that was last seen in `last`, unless it shows raised hands. -/
def Late (last msg : ImageMsg K n Id) : Prop := 0.5 < msg.stamp - last.stamp

/-- The images with raised hands, each with the person who was taken from it. -/
def sources (images : List (ImageMsg K n Id)) : List (ImageMsg K n Id × Person K n Id) :=
  images.filterMap fun msg => (shown c msg).map fun person => (msg, person)

/-- The embeddings that the images add. -/
def collected (images : List (ImageMsg K n Id)) : List (Embedding K n) :=
  (sources c images).map fun source => source.2.embedding

theorem collected_append (images more : List (ImageMsg K n Id)) :
    collected c (images ++ more) = collected c images ++ collected c more := by
  unfold collected sources
  rw [List.filterMap_append, List.map_append]

theorem collected_raised {msg : ImageMsg K n Id} {person : Person K n Id}
    (h : shown c msg = some person) : collected c [msg] = [person.embedding] := by
  unfold collected sources
  rw [List.filterMap_cons, h]
  rfl

theorem collected_lowered {msg : ImageMsg K n Id} (h : shown c msg = none) :
    collected c [msg] = [] := by
  unfold collected sources
  rw [List.filterMap_cons, h]
  rfl

/-- The person that is shown is in the image, with both hands up. -/
theorem shown_mem {msg : ImageMsg K n Id} {person : Person K n Id} (h : shown c msg = some person) :
    person ∈ people_in c msg ∧ hands_up c person = true :=
  List.mem_filter.mp (List.argmax_mem h)

theorem mem_sources {images : List (ImageMsg K n Id)} {source : ImageMsg K n Id × Person K n Id} :
    source ∈ sources c images ↔ source.1 ∈ images ∧ shown c source.1 = some source.2 := by
  unfold sources
  rw [List.mem_filterMap]
  constructor
  · rintro ⟨msg, hmsg, hsource⟩
    obtain ⟨person, hperson, rfl⟩ := Option.map_eq_some_iff.mp hsource
    exact ⟨hmsg, hperson⟩
  · rintro ⟨hmsg, hperson⟩
    exact ⟨source.1, hmsg, by rw [hperson, Option.map_some]⟩

namespace PersonDetector

/-- The timer runs for a gesture that began at `start`. -/
structure Timing (gesture : List (ImageMsg K n Id)) (last : ImageMsg K n Id) (start : K)
    (s : PersonDetector K n recent_size Id) : Prop where
  streak : Streak (raised c) Late gesture last
  started : gesture.head?.map ImageMsg.stamp = some start
  last_up : s.hands_last_up = some last.stamp
  embeddings : s.enroll_embeddings = collected c gesture

/-- While the timer runs, the latest images are a gesture. -/
def Timed (images : List (ImageMsg K n Id)) (s : PersonDetector K n recent_size Id) : Prop :=
  ∀ start, s.enroll_start = some start →
    ∃ before gesture last, images = before ++ gesture ∧ Timing c gesture last start s

/-- An enrollment at the image `last`: the gesture up to it, which has lasted. -/
structure Enrolled (gesture : List (ImageMsg K n Id)) (last : ImageMsg K n Id)
    (enroll_start : Option K) (embeddings : List (Embedding K n)) : Prop where
  streak : Streak (raised c) Late gesture last
  started : gesture.head?.map ImageMsg.stamp = some (enroll_start.getD last.stamp)
  lasted : c.enroll_duration ≤ last.stamp - enroll_start.getD last.stamp
  embeddings_eq : embeddings = collected c gesture

variable {s s' : PersonDetector K n recent_size Id} {images : List (ImageMsg K n Id)}
  {msg : ImageMsg K n Id} {embeddings : List (Embedding K n)}

theorem Timed.congr (h : Timed c images s) (hstart : s'.enroll_start = s.enroll_start)
    (hlast : s'.hands_last_up = s.hands_last_up)
    (hembeddings : s'.enroll_embeddings = s.enroll_embeddings) : Timed c images s' := by
  intro start hs'
  obtain ⟨before, gesture, last, himages, htiming⟩ := h start (hstart ▸ hs')
  exact ⟨before, gesture, last, himages, htiming.streak, htiming.started,
    hlast.trans htiming.last_up, hembeddings.trans htiming.embeddings⟩

theorem Timed.stopped (h : s.enroll_start = none) : Timed c images s := by
  intro start hstart
  rw [h] at hstart
  cases hstart

/-- An image without raised hands stops the timer, or belongs to the gesture. -/
theorem lower_hands_timed (h : Timed c images s) (hdown : shown c msg = none) :
    Timed c (images ++ [msg]) (s.lower_hands msg.stamp) := by
  have hlowered : raised c msg = false := by
    unfold raised
    rw [hdown]
    rfl
  cases hrunning : s.enroll_start with
  | none =>
    apply Timed.stopped
    unfold lower_hands
    rw [hrunning]
    exact hrunning
  | some start =>
    obtain ⟨before, gesture, last, rfl, htiming⟩ := h start hrunning
    have hlower : s.lower_hands msg.stamp =
        if 0.5 < msg.stamp - last.stamp then { s with enroll_start := none } else s := by
      unfold lower_hands
      rw [hrunning, htiming.last_up]
    rw [hlower]
    by_cases hlate : 0.5 < msg.stamp - last.stamp
    · rw [if_pos hlate]
      exact Timed.stopped c rfl
    · rw [if_neg hlate]
      intro start' hstart'
      obtain rfl := Option.some.inj (hrunning.symm.trans hstart')
      refine ⟨before, gesture ++ [msg], last, List.append_assoc .., ?_⟩
      exact {
        streak := htiming.streak.pause hlowered hlate
        started := by
          obtain ⟨first, hfirst, hstamp⟩ := Option.map_eq_some_iff.mp htiming.started
          rw [List.head?_append, hfirst, Option.some_or, Option.map_some, hstamp]
        last_up := htiming.last_up
        embeddings := by
          rw [collected_append, collected_lowered c hdown, List.append_nil]
          exact htiming.embeddings }

/-- An image with raised hands carries the gesture on, or begins one. -/
theorem raise_hands_timing (h : Timed c images s) {person : Person K n Id}
    (hup : shown c msg = some person) : ∃ before gesture, images ++ [msg] = before ++ gesture ∧
      Timing c gesture msg (s.enroll_start.getD msg.stamp)
        (s.raise_hands person.embedding msg.stamp) := by
  have hraised : raised c msg = true := by
    unfold raised
    rw [hup]
    rfl
  cases hrunning : s.enroll_start with
  | none =>
    refine ⟨images, [msg], rfl, .first hraised, rfl, rfl, ?_⟩
    unfold raise_hands
    rw [hrunning, collected_raised c hup]
    rfl
  | some start =>
    obtain ⟨before, gesture, last, rfl, htiming⟩ := h start hrunning
    refine ⟨before, gesture ++ [msg], List.append_assoc .., htiming.streak.again hraised, ?_, rfl, ?_⟩
    · obtain ⟨first, hfirst, hstamp⟩ := Option.map_eq_some_iff.mp htiming.started
      rw [List.head?_append, hfirst, Option.some_or, Option.map_some, hstamp]
      rfl
    · unfold raise_hands
      rw [hrunning, collected_append, collected_raised c hup, ← htiming.embeddings]
      rfl

omit [Field K] [LinearOrder K] in
theorem raise_hands_start (embedding : Embedding K n) (stamp : K)
    (s : PersonDetector K n recent_size Id) :
    (s.raise_hands embedding stamp).enroll_start = some (s.enroll_start.getD stamp) := by
  unfold raise_hands
  cases hrunning : s.enroll_start with
  | none => rfl
  | some start => exact hrunning

/-- An image keeps the timer's record; an enrollment at it is of the gesture that it ends, and stops
the timer. -/
theorem update_enrollment_timed (h : Timed c images s) (msg : ImageMsg K n Id) :
    Timed c (images ++ [msg]) (s.update_enrollment c (people_in c msg) msg.stamp).2 ∧
    ∀ embeddings, (s.update_enrollment c (people_in c msg) msg.stamp).1 = some embeddings →
      (s.update_enrollment c (people_in c msg) msg.stamp).2.enroll_start = none ∧
        ∃ before gesture, images ++ [msg] = before ++ gesture ∧
          Enrolled c gesture msg s.enroll_start embeddings := by
  unfold update_enrollment
  cases hshown : shown c msg with
  | none =>
    rw [show raising c (people_in c msg) = none from hshown]
    refine ⟨lower_hands_timed c h hshown, ?_⟩
    intro embeddings henrolled
    cases henrolled
  | some person =>
    rw [show raising c (people_in c msg) = some person from hshown]
    obtain ⟨before, gesture, himages, htiming⟩ := raise_hands_timing c h hshown
    have hstart := raise_hands_start person.embedding msg.stamp s
    dsimp only
    rw [hstart, Option.getD_some]
    by_cases hlasted : c.enroll_duration ≤ msg.stamp - s.enroll_start.getD msg.stamp
    · rw [if_pos hlasted]
      refine ⟨Timed.stopped c rfl, ?_⟩
      intro embeddings henrolled
      obtain rfl := Option.some.inj henrolled
      exact ⟨rfl, before, gesture, himages, htiming.streak, htiming.started, hlasted,
        htiming.embeddings⟩
    · rw [if_neg hlasted]
      refine ⟨?_, ?_⟩
      · intro start hrunning
        obtain rfl := Option.some.inj (hstart.symm.trans hrunning)
        exact ⟨before, gesture, msg, himages, htiming⟩
      · intro embeddings henrolled
        cases henrolled

/-- What a call of the node does to the timer's record. -/
theorem perform_timed (h : Timed c images s) (call : Call K n Id) :
    Timed c (images ++ (s.processed call).toList) (s.perform c hypot call) ∧
    ∀ embeddings, s.enrolled_by c hypot call = some embeddings →
      (s.perform c hypot call).enroll_start = none ∧
        ∃ msg before gesture, s.processed call = some msg ∧ images ++ [msg] = before ++ gesture ∧
          Enrolled c gesture msg s.enroll_start embeddings := by
  cases call with
  | camera_info k =>
    refine ⟨?_, fun embeddings henrolled => by cases henrolled⟩
    show Timed c (images ++ []) (s.on_camera_info k)
    rw [List.append_nil]
    unfold on_camera_info
    split
    · exact h.congr c rfl rfl rfl
    · exact h
  | enroll =>
    refine ⟨?_, fun embeddings henrolled => by cases henrolled⟩
    show Timed c (images ++ []) s.on_enroll
    rw [List.append_nil]
    unfold on_enroll
    split
    · exact h
    · exact h.congr c rfl rfl rfl
  | forget =>
    refine ⟨?_, fun embeddings henrolled => by cases henrolled⟩
    show Timed c (images ++ []) s.on_forget
    rw [List.append_nil]
    exact h.congr c rfl rfl rfl
  | image msg =>
    show Timed c (images ++ (s.camera_matrix.map fun _ => msg).toList) (s.on_image c hypot msg).2 ∧
      ∀ embeddings, (s.on_image c hypot msg).1.bind Seen.enrolled = some embeddings →
        (s.on_image c hypot msg).2.enroll_start = none ∧
          ∃ image before gesture, (s.camera_matrix.map fun _ => msg) = some image ∧
            images ++ [image] = before ++ gesture ∧ Enrolled c gesture image s.enroll_start embeddings
    cases hcamera : s.camera_matrix with
    | none =>
      unfold on_image
      rw [hcamera]
      refine ⟨?_, fun embeddings henrolled => by cases henrolled⟩
      rw [Option.map_none, Option.toList_none, List.append_nil]
      exact h
    | some m =>
      obtain ⟨seen, s', hcall, hupdate, -⟩ := on_image_calibrated c hypot hcamera msg
      have hseen : Timed c images { s with people := people_in c msg, image_width := msg.width } :=
        h.congr c rfl rfl rfl
      obtain ⟨htimed, henrolls⟩ := update_enrollment_timed c hseen msg
      rw [hupdate] at htimed henrolls
      rw [hcall]
      refine ⟨htimed.congr c rfl rfl rfl, ?_⟩
      intro embeddings henrolled
      obtain ⟨hstopped, before, gesture, himages, henrolled⟩ := henrolls embeddings henrolled
      exact ⟨hstopped, msg, before, gesture, rfl, himages, henrolled⟩

theorem processed_images_snoc (calls : List (Call K n Id)) (call : Call K n Id)
    (s : PersonDetector K n recent_size Id) :
    s.processed_images c hypot (calls ++ [call]) =
      s.processed_images c hypot calls ++
        ((calls.foldl (perform c hypot) s).processed call).toList := by
  induction calls generalizing s with
  | nil => rw [List.nil_append, processed_images, processed_images, processed_images, List.append_nil,
      List.nil_append, List.foldl_nil]
  | cons first calls ih =>
    rw [List.cons_append, processed_images, processed_images, ih, List.append_assoc, List.foldl_cons]

theorem after_snoc (calls : List (Call K n Id)) (call : Call K n Id) :
    (after c hypot (calls ++ [call]) : PersonDetector K n recent_size Id) =
      (after c hypot calls).perform c hypot call := by
  unfold after
  rw [List.foldl_append]
  rfl

/-- The images that the calls process, from the start of the node. -/
def images_of (recent_size : Nat) (calls : List (Call K n Id)) : List (ImageMsg K n Id) :=
  ({} : PersonDetector K n recent_size Id).processed_images c hypot calls

/-- The images since the latest enrollment, `images` before the calls. -/
def fresh_images (s : PersonDetector K n recent_size Id) (images : List (ImageMsg K n Id)) :
    List (Call K n Id) → List (ImageMsg K n Id)
  | [] => images
  | call :: calls =>
    fresh_images (s.perform c hypot call)
      (if (s.enrolled_by c hypot call).isSome then [] else images ++ (s.processed call).toList) calls

/-- The images that a call ends, since the latest enrollment before it. -/
def since_enrollment (recent_size : Nat) (calls : List (Call K n Id)) (call : Call K n Id) :
    List (ImageMsg K n Id) :=
  fresh_images c hypot ({} : PersonDetector K n recent_size Id) [] calls ++
    ((after c hypot calls : PersonDetector K n recent_size Id).processed call).toList

theorem fresh_images_snoc (calls : List (Call K n Id)) (call : Call K n Id)
    (s : PersonDetector K n recent_size Id) (images : List (ImageMsg K n Id)) :
    fresh_images c hypot s images (calls ++ [call]) =
      if ((calls.foldl (perform c hypot) s).enrolled_by c hypot call).isSome then []
      else fresh_images c hypot s images calls ++
        ((calls.foldl (perform c hypot) s).processed call).toList := by
  induction calls generalizing s images with
  | nil => rfl
  | cons first calls ih => rw [List.cons_append, fresh_images, ih, List.foldl_cons, fresh_images]

variable (recent_size) in
/-- The images since the latest enrollment are the last ones of the run. -/
theorem fresh_images_suffix (calls : List (Call K n Id)) :
    fresh_images c hypot ({} : PersonDetector K n recent_size Id) [] calls <:+
      images_of c hypot recent_size calls := by
  induction calls using List.reverseRecOn with
  | nil => exact List.nil_suffix
  | append_singleton calls call ih =>
    obtain ⟨older, holder⟩ := ih
    unfold images_of at holder ⊢
    rw [fresh_images_snoc, processed_images_snoc]
    split
    · exact List.nil_suffix
    · exact ⟨older, by rw [← List.append_assoc, holder]⟩

theorem after_timed (calls : List (Call K n Id)) :
    Timed c (fresh_images c hypot ({} : PersonDetector K n recent_size Id) [] calls)
      (after c hypot calls : PersonDetector K n recent_size Id) := by
  induction calls using List.reverseRecOn with
  | nil => exact Timed.stopped c rfl
  | append_singleton calls call ih =>
    obtain ⟨htimed, henrolls⟩ := perform_timed c hypot ih call
    rw [after_snoc, fresh_images_snoc]
    split
    · rename_i henrolled
      obtain ⟨embeddings, hembeddings⟩ := Option.isSome_iff_exists.mp henrolled
      exact Timed.stopped c (henrolls embeddings hembeddings).1
    · exact htimed

variable (recent_size) in
theorem images_of_snoc (calls : List (Call K n Id)) (call : Call K n Id) :
    ∃ older, images_of c hypot recent_size (calls ++ [call]) =
      older ++ since_enrollment c hypot recent_size calls call := by
  obtain ⟨older, holder⟩ := fresh_images_suffix recent_size c hypot calls
  refine ⟨older, ?_⟩
  unfold since_enrollment
  rw [← List.append_assoc, holder]
  unfold images_of
  rw [processed_images_snoc]
  rfl

/-- What links the images of the whole run links those since the latest enrollment. -/
theorem linked_since_enrollment {R : ImageMsg K n Id → ImageMsg K n Id → Prop}
    {calls : List (Call K n Id)} {call : Call K n Id}
    (h : Linked (raised c) Late R (images_of c hypot recent_size (calls ++ [call]))) :
    Linked (raised c) Late R (since_enrollment c hypot recent_size calls call) := by
  obtain ⟨older, himages⟩ := images_of_snoc recent_size c hypot calls call
  rw [himages] at h
  exact h.suffix

/-- Every enrollment of a run is of the gesture up to its image, and links between the images
since the one before make a chain of the raised hands in it. -/
theorem run_enrolls {R : ImageMsg K n Id → ImageMsg K n Id → Prop}
    {calls : List (Call K n Id)} {call : Call K n Id} {embeddings : List (Embedding K n)}
    (h : (after c hypot calls : PersonDetector K n recent_size Id).enrolled_by c hypot call =
      some embeddings)
    (hlinked : Linked (raised c) Late R (since_enrollment c hypot recent_size calls call)) :
    ∃ msg before gesture, images_of c hypot recent_size (calls ++ [call]) = before ++ gesture ∧
      Enrolled c gesture msg
        (after c hypot calls : PersonDetector K n recent_size Id).enroll_start embeddings ∧
      (gesture.filter (raised c)).IsChain R := by
  obtain ⟨-, msg, before, gesture, hprocessed, hfresh, henrolled⟩ :=
    (perform_timed c hypot (after_timed c hypot calls) call).2 embeddings h
  have hsince : since_enrollment c hypot recent_size calls call = before ++ gesture := by
    unfold since_enrollment
    rw [hprocessed]
    exact hfresh
  obtain ⟨older, himages⟩ := images_of_snoc recent_size c hypot calls call
  rw [hsince] at hlinked himages
  rw [← List.append_assoc] at himages
  exact ⟨msg, older ++ before, gesture, himages, henrolled, henrolled.streak.chain hlinked.suffix⟩

theorem update_enrollment_camera (people : List (Person K n Id)) (stamp : K)
    (s : PersonDetector K n recent_size Id) :
    (s.update_enrollment c people stamp).2.camera_matrix = s.camera_matrix := by
  unfold update_enrollment
  cases raising c people with
  | none =>
    show (s.lower_hands stamp).camera_matrix = s.camera_matrix
    unfold lower_hands
    split
    · split <;> rfl
    · rfl
  | some person =>
    have hraise : (s.raise_hands person.embedding stamp).camera_matrix = s.camera_matrix := by
      unfold raise_hands
      cases s.enroll_start <;> rfl
    dsimp only
    split
    · exact hraise
    · exact hraise

theorem perform_image_camera {m : CameraMatrix K} (hcamera : s.camera_matrix = some m)
    (msg : ImageMsg K n Id) : (s.perform c hypot (.image msg)).camera_matrix = some m := by
  obtain ⟨seen, s', hcall, hupdate, -⟩ := on_image_calibrated c hypot hcamera msg
  have hkept := update_enrollment_camera c (people_in c msg) msg.stamp
    { s with people := people_in c msg, image_width := msg.width }
  rw [hupdate] at hkept
  show (s.on_image c hypot msg).2.camera_matrix = some m
  rw [hcall]
  exact hkept.trans hcamera

/-- A calibrated camera has all its images processed. -/
theorem processed_images_calibrated {m : CameraMatrix K} (hcamera : s.camera_matrix = some m)
    (msgs : List (ImageMsg K n Id)) :
    s.processed_images c hypot (msgs.map .image) = msgs := by
  induction msgs generalizing s with
  | nil => rfl
  | cons msg msgs ih =>
    rw [List.map_cons, processed_images, ih (perform_image_camera c hypot hcamera msg)]
    show (s.camera_matrix.map fun _ => msg).toList ++ msgs = msg :: msgs
    rw [hcamera]
    rfl

theorem images_of_calibrated {k : Fin 9 → K} (hk : 0.0 < k 0) (msgs : List (ImageMsg K n Id)) :
    images_of c hypot recent_size (.camera_info k :: msgs.map .image) = msgs := by
  unfold images_of
  rw [processed_images]
  apply processed_images_calibrated (m := ⟨k 0, k 4, k 2, k 5⟩)
  show (on_camera_info k {}).camera_matrix = _
  unfold on_camera_info
  rw [if_pos hk]

/-- A gesture that makes as many embeddings as there are images is made of all of them. -/
theorem whole_gesture {before gesture : List (ImageMsg K n Id)} (himages : images = before ++ gesture)
    (hlength : images.length ≤ (collected c gesture).length) : gesture = images := by
  have hle : (collected c gesture).length ≤ gesture.length := by
    unfold collected sources
    rw [List.length_map]
    exact List.length_filterMap_le _ _
  rw [himages, List.length_append] at hlength
  have hbefore : before = [] := List.eq_nil_of_length_eq_zero (by omega)
  rw [himages, hbefore, List.nil_append]

section Scene

def calibrated : Fin 9 → Rat := ![500, 0, 320, 0, 500, 240, 0, 0, 1]

/-- Shoulders at 100, hips at 200, wrists at 0. -/
def hands_high (joint : Fin 17) : Keypoint Rat :=
  if joint = LEFT_WRIST ∨ joint = RIGHT_WRIST then ⟨0, 0, 1⟩
  else if joint < LEFT_HIP then ⟨0, 100, 1⟩ else ⟨0, 200, 1⟩

def near : Detection Rat 1 Bool := ⟨⟨0, 0, 300, 400⟩, 1, hands_high, some ![-1], true⟩

def far : Detection Rat 1 Bool := ⟨⟨0, 0, 200, 400⟩, 1, hands_high, some ![1], false⟩

/-- An image after so many milliseconds. -/
def snap (milliseconds : Nat) (rows : List (Detection Rat 1 Bool)) : ImageMsg Rat 1 Bool where
  sec := 0
  nanosec := milliseconds * 1000000
  frame_id := "camera"
  width := 640
  rows := rows
  rotation := none

def no_hypot (_ _ : Rat) : Rat := 0

def wave (msgs : List (ImageMsg Rat 1 Bool)) : List (Call Rat 1 Bool) :=
  .camera_info calibrated :: msgs.map .image

def waved (msgs : List (ImageMsg Rat 1 Bool)) : PersonDetector Rat 1 30 Bool :=
  after person_follow_yaml no_hypot (wave msgs)

theorem images_of_wave (msgs : List (ImageMsg Rat 1 Bool)) (msg : ImageMsg Rat 1 Bool) :
    images_of person_follow_yaml no_hypot 30 (wave msgs ++ [.image msg]) = msgs ++ [msg] := by
  have hcalls : wave msgs ++ [.image msg] = .camera_info calibrated :: (msgs ++ [msg]).map .image := by
    rw [List.map_append]
    rfl
  rw [hcalls]
  exact images_of_calibrated person_follow_yaml no_hypot (by decide +kernel) _

/-- So many images of one person with raised hands, 400 ms apart. -/
def steady (count : Nat) : List (ImageMsg Rat 1 Bool) :=
  (List.range count).map fun i => snap (400 * i) [far]

theorem steady_wave_enrolls : (waved (steady 5)).enrolled_by person_follow_yaml no_hypot
    (.image (snap 2000 [far])) = some (List.replicate 6 ![1]) := by decide +kernel

end Scene

/-- The enrollment is of a gesture that began at `enroll_start`, or at the latest image if the
timer was not running, and was held for `enroll_duration` without a gap. -/
def HeldGesture (images : List (ImageMsg K n Id)) (enroll_start : Option K)
    (embeddings : List (Embedding K n)) : Prop :=
  ∃ before gesture first last, images = before ++ gesture ∧ embeddings = collected c gesture ∧
    gesture.head? = some first ∧ first.stamp = enroll_start.getD last.stamp ∧
    (gesture.filter (raised c)).head? = some first ∧
    (gesture.filter (raised c)).getLast? = some last ∧
    c.enroll_duration ≤ last.stamp - first.stamp ∧
    (gesture.filter (raised c)).IsChain fun a b => b.stamp - a.stamp ≤ 0.5

/-- Between two images with raised hands that lie more than half a second apart, and have no
such image between them, some image lies more than half a second after the first. -/
def GapsSeen (images : List (ImageMsg K n Id)) : Prop :=
  Linked (raised c) Late (fun a b => b.stamp - a.stamp ≤ 0.5) images

/-- A gesture is held without a gap in every run whose gaps since the latest enrollment are seen. -/
theorem gesture_held {calls : List (Call K n Id)} {call : Call K n Id}
    (hgaps : GapsSeen c (since_enrollment c hypot recent_size calls call))
    {embeddings : List (Embedding K n)}
    (h : (after c hypot calls : PersonDetector K n recent_size Id).enrolled_by c hypot call =
      some embeddings) :
    HeldGesture c (images_of c hypot recent_size (calls ++ [call]))
      (after c hypot calls : PersonDetector K n recent_size Id).enroll_start embeddings := by
  obtain ⟨last, before, gesture, himages, henrolled, hchain⟩ := run_enrolls c hypot h hgaps
  obtain ⟨first, hfirst, hraised⟩ := henrolled.streak.head_filter
  have hstart : first.stamp =
      (after c hypot calls : PersonDetector K n recent_size Id).enroll_start.getD last.stamp := by
    have hstarted := henrolled.started
    rw [hfirst] at hstarted
    exact Option.some.inj hstarted
  have hlasted := henrolled.lasted
  rw [← hstart] at hlasted
  exact ⟨before, gesture, first, last, himages, henrolled.embeddings_eq, hfirst, hstart, hraised,
    henrolled.streak.getLast?_filter, hlasted, hchain⟩

/-- Six images with raised hands within two seconds. -/
theorem steady_wave_held : ∃ embeddings, HeldGesture person_follow_yaml
    (images_of person_follow_yaml no_hypot 30 (wave (steady 5) ++ [.image (snap 2000 [far])]))
    (waved (steady 5)).enroll_start embeddings := by
  have hgaps : GapsSeen person_follow_yaml (since_enrollment person_follow_yaml no_hypot 30
      (wave (steady 5)) (.image (snap 2000 [far]))) := by
    apply linked_since_enrollment
    rw [images_of_wave]
    apply Linked.of_isChain
    · decide +kernel
    · decide +kernel
  exact ⟨_, gesture_held person_follow_yaml no_hypot hgaps steady_wave_enrolls⟩

/-- Two images two seconds apart, with none between them, enroll. -/
theorem two_seconds_unseen : ∃ embeddings,
    ([snap 0 [far]] ++ [snap 2000 [far]]).Pairwise (fun a b => a.stamp ≤ b.stamp) ∧
    (waved [snap 0 [far]]).enrolled_by person_follow_yaml no_hypot (.image (snap 2000 [far])) =
      some embeddings ∧
    ¬ HeldGesture person_follow_yaml
      (images_of person_follow_yaml no_hypot 30 (wave [snap 0 [far]] ++ [.image (snap 2000 [far])]))
      (waved [snap 0 [far]]).enroll_start embeddings := by
  refine ⟨[![1], ![1]], by decide +kernel, by decide +kernel, ?_⟩
  rw [images_of_wave]
  rintro ⟨before, gesture, first, last, hgesture, hembeddings, -, -, -, -, -, hchain⟩
  rw [whole_gesture person_follow_yaml hgesture (by rw [← hembeddings]; exact le_refl 2)] at hchain
  revert hchain
  decide +kernel

/-- The embeddings of the enrollment are of one person, who has both hands up in the images
that they were taken from. -/
def OnePerson (images : List (ImageMsg K n Id)) (embeddings : List (Embedding K n)) : Prop :=
  ∃ before gesture who, images = before ++ gesture ∧ embeddings = collected c gesture ∧
    ∀ source ∈ sources c gesture, source.2 ∈ people_in c source.1 ∧
      hands_up c source.2 = true ∧ source.2.who = who

/-- Two successive images with raised hands show the same person as the largest one, unless
some image between them lies more than half a second after the first. -/
def SamePerson (images : List (ImageMsg K n Id)) : Prop :=
  Linked (raised c) Late (fun a b => (shown c a).map Person.who = (shown c b).map Person.who) images

/-- One person is enrolled in every run whose gestures since the latest enrollment do not change
hands. -/
theorem one_person_enrolled {calls : List (Call K n Id)} {call : Call K n Id}
    (hsame : SamePerson c (since_enrollment c hypot recent_size calls call))
    {embeddings : List (Embedding K n)}
    (h : (after c hypot calls : PersonDetector K n recent_size Id).enrolled_by c hypot call =
      some embeddings) :
    OnePerson c (images_of c hypot recent_size (calls ++ [call])) embeddings := by
  obtain ⟨last, before, gesture, himages, henrolled, hchain⟩ := run_enrolls c hypot h hsame
  obtain ⟨first, -, hfirst⟩ := henrolled.streak.head_filter
  obtain ⟨rest, hrest⟩ := List.head?_eq_some_iff.mp hfirst
  rw [hrest] at hchain
  have hmem : first ∈ gesture.filter (raised c) := by
    rw [hrest]
    exact List.mem_cons_self
  obtain ⟨person, hperson⟩ := Option.isSome_iff_exists.mp (List.mem_filter.mp hmem).2
  refine ⟨before, gesture, person.who, himages, henrolled.embeddings_eq, ?_⟩
  intro source hsource
  obtain ⟨hgesture, hshown⟩ := (mem_sources c).mp hsource
  obtain ⟨hpeople, hup⟩ := shown_mem c hshown
  have hraised : raised c source.1 = true := Option.isSome_iff_exists.mpr ⟨_, hshown⟩
  have hin : source.1 ∈ first :: rest := by
    rw [← hrest]
    exact List.mem_filter.mpr ⟨hgesture, hraised⟩
  have hwho := chain_eq_head hchain hin
  rw [hshown, hperson] at hwho
  exact ⟨hpeople, hup, Option.some.inj hwho⟩

/-- One person alone in front of the camera is enrolled. -/
theorem far_enrolled : ∃ embeddings, OnePerson person_follow_yaml
    (images_of person_follow_yaml no_hypot 30 (wave (steady 5) ++ [.image (snap 2000 [far])]))
    embeddings := by
  have hsame : SamePerson person_follow_yaml (since_enrollment person_follow_yaml no_hypot 30
      (wave (steady 5)) (.image (snap 2000 [far]))) := by
    apply linked_since_enrollment
    rw [images_of_wave]
    apply Linked.of_isChain
    · decide +kernel
    · decide +kernel
  exact ⟨_, one_person_enrolled person_follow_yaml no_hypot hsame steady_wave_enrolls⟩

/-- Someone nearer raises the hands while the gesture lasts. -/
def joined : List (ImageMsg Rat 1 Bool) :=
  steady 3 ++ [snap 1200 [far, near], snap 1600 [far, near]]

/-- The embeddings of two people are enrolled. -/
theorem two_people_enrolled : ∃ embeddings,
    (joined ++ [snap 2000 [far, near]]).Pairwise (fun a b => a.stamp ≤ b.stamp) ∧
    (waved joined).enrolled_by person_follow_yaml no_hypot (.image (snap 2000 [far, near])) =
      some embeddings ∧
    ¬ OnePerson person_follow_yaml
      (images_of person_follow_yaml no_hypot 30 (wave joined ++ [.image (snap 2000 [far, near])]))
      embeddings := by
  refine ⟨[![1], ![1], ![1], ![-1], ![-1], ![-1]], by decide +kernel, by decide +kernel, ?_⟩
  rw [images_of_wave]
  rintro ⟨before, gesture, who, hgesture, hembeddings, hone⟩
  rw [whole_gesture person_follow_yaml hgesture (by rw [← hembeddings]; exact le_refl 6)] at hone
  have hall : ∀ person ∈ (sources person_follow_yaml (joined ++ [snap 2000 [far, near]])).map Prod.snd,
      person.who = who := by
    intro person hperson
    obtain ⟨source, hsource, rfl⟩ := List.mem_map.mp hperson
    exact (hone source hsource).2.2
  have hwhos : ((sources person_follow_yaml (joined ++ [snap 2000 [far, near]])).map Prod.snd).map
      Person.who = [false, false, false, true, true, true] := by decide +kernel
  have heach : ∀ x ∈ [false, false, false, true, true, true], x = who := by
    rw [← hwhos]
    intro x hx
    obtain ⟨person, hperson, rfl⟩ := List.mem_map.mp hx
    exact hall person hperson
  have hfar : false = who := heach false (by decide)
  have hnear : true = who := heach true (by decide)
  rw [← hnear] at hfar
  cases hfar

end PersonDetector

end IotRobot.Perception
