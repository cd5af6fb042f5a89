import IotRobot.Web.Viewers

/-!
# New images only

What the viewers are sent after a change of the mode, and what the first viewer is sent after a
time in which nobody watched.
-/

namespace IotRobot.Web

open Lib

set_option autoImplicit false

theorem Stream.proceed_written {hub : FrameHub} {timeout gone : Bool} {stream stream' : Stream}
    (h : stream.proceed hub timeout gone = some stream') :
    stream'.written = stream.written ∨
      ∃ image ∈ hub.jpeg, stream'.written = stream.written ++ [image] := by
  unfold Stream.proceed at h
  rw [if_pos (Stream.proceed_await h)] at h
  obtain ⟨⟨jpeg, seen⟩, hframe, rfl⟩ := Option.map_eq_some_iff.mp h
  dsimp only
  split
  · exact .inl rfl
  · cases jpeg with
    | none => exact .inl rfl
    | some image =>
      unfold FrameHub.next_frame at hframe
      split at hframe
      · cases hframe
      · split at hframe
        · exact .inr ⟨image, (Prod.mk.inj (Option.some.inj hframe)).1, rfl⟩
        · cases hframe

theorem Stream.wrote_written {hub : FrameHub} {ok : Bool} {stream stream' : Stream}
    (h : stream.wrote hub ok = some stream') : stream'.written = stream.written := by
  unfold Stream.wrote at h
  rw [if_pos (Stream.wrote_await h)] at h
  obtain rfl := Option.some.inj h
  cases ok <;> rfl

namespace Video
variable {K Client V : Type} {c : Parameters K}
variable {s s' u v : Video K Client} {P : CameraImage → Prop} {k : Nat → Nat}

/-- What the handler `i` has written. -/
def written (i : Nat) (s : Video K Client) : List CameraImage := (s.streams[i]?.map Stream.written).getD []

theorem written_of {i : Nat} {stream : Stream} (h : s.streams[i]? = some stream) :
    s.written i = stream.written := by
  unfold written
  rw [h]
  rfl

/-- All that is on its way to a viewer, and what a handler `i` has written after its first `k i`
images, are images of a kind. -/
structure Shows (P : CameraImage → Prop) (k : Nat → Nat) (s : Video K Client) : Prop where
  image : ∀ image ∈ s.image, P image
  jpeg : ∀ image ∈ s.hub.jpeg, P image
  run : ∀ run ∈ s.runs, ∀ image ∈ run.await.image, P image
  written : ∀ i, ∀ image ∈ (s.written i).drop (k i), P image

/-- Some of it forgotten. -/
theorem Shows.same (h : s.Shows P k) (himage : ∀ image ∈ s'.image, image ∈ s.image)
    (hjpeg : ∀ image ∈ s'.hub.jpeg, image ∈ s.hub.jpeg) (hrun : ∀ run ∈ s'.runs, run ∈ s.runs)
    (hwritten : ∀ i, s'.written i = s.written i) : s'.Shows P k := by
  refine ⟨fun image hi => h.image image (himage image hi), fun image hi => h.jpeg image (hjpeg image hi),
    fun run hr => h.run run (hrun run hr), fun i => ?_⟩
  rw [hwritten i]
  exact h.written i

theorem remove_viewer_shows (h : s.Shows P k) : (s.remove_viewer c).Shows P k := by
  unfold remove_viewer
  dsimp only
  split
  · refine h.same (fun _ hi => ?_) (fun _ hj => ?_) (fun _ hr => (List.mem_filter.mp hr).1) fun _ => rfl
    · cases hi
    · cases hj
  · exact h.same (fun _ hi => hi) (fun _ hj => hj) (fun _ hr => hr) fun _ => rfl

theorem settle_shows (h : s.Shows P k) {i : Nat} {stream stream' : Stream} (hi : s.streams[i]? = some stream)
    (hwritten : stream'.written = stream.written ∨
      ∃ image ∈ s.hub.jpeg, stream'.written = stream.written ++ [image]) :
    (s.settle c i stream').Shows P k := by
  obtain ⟨hlt, -⟩ := List.getElem?_eq_some_iff.mp hi
  have hset : { s with streams := s.streams.set i stream' }.Shows P k := by
    refine ⟨h.image, h.jpeg, h.run, fun j image himage => ?_⟩
    by_cases hj : i = j
    · subst hj
      have hnow : { s with streams := s.streams.set i stream' }.written i = stream'.written :=
        written_of (List.getElem?_set_self hlt)
      have hbefore := h.written i
      rw [written_of hi] at hbefore
      rw [hnow] at himage
      rcases hwritten with hsame | ⟨new, hnew, hmore⟩
      · rw [hsame] at himage
        exact hbefore image himage
      · rw [hmore, List.drop_append] at himage
        rcases List.mem_append.mp himage with hold | hlast
        · exact hbefore image hold
        · rw [List.mem_singleton.mp (List.mem_of_mem_drop hlast)]
          exact h.jpeg new hnew
    · have hother : { s with streams := s.streams.set i stream' }.written j = s.written j := by
        unfold written
        rw [List.getElem?_set_ne hj]
      rw [hother] at himage
      exact h.written j image himage
  unfold settle
  dsimp only
  split
  · exact remove_viewer_shows hset
  · exact hset

theorem stream_shows (h : s.Shows P k) : (s.stream c).Shows P k := by
  let new : Stream := {}
  have hstreams : (s.add_viewer c).streams = s.streams := by
    unfold add_viewer
    dsimp only
    split <;> rfl
  have hwritten : ∀ i, ∀ image ∈ (({ s with streams := s.streams ++ [new] } : Video K Client).written i).drop (k i),
      P image := by
    intro i image himage
    unfold written at himage
    rw [List.getElem?_append] at himage
    split at himage
    · exact h.written i image himage
    · -- a new handler has written nothing
      rw [List.getElem?_singleton] at himage
      split at himage
      · simp [new] at himage
      · simp at himage
  have hmore : { s.add_viewer c with streams := s.streams ++ [new] }.Shows P k := by
    unfold add_viewer
    dsimp only
    split
    · refine ⟨h.image, h.jpeg, fun run hrun image himage => ?_, hwritten⟩
      rcases List.mem_append.mp hrun with hold | hnew
      · exact h.run run hold image himage
      · rw [List.mem_singleton.mp hnew] at himage
        cases himage
    · exact ⟨h.image, h.jpeg, h.run, hwritten⟩
  unfold stream
  dsimp only
  rw [hstreams]
  exact settle_shows hmore List.getElem?_concat_length (.inl rfl)

theorem run_shows (h : s.Shows P k) {i : Nat} {encoding : Encoding} (hr : s.run i encoding = some s') :
    s'.Shows P k := by
  obtain ⟨run, hi, rfl⟩ := Option.map_eq_some_iff.mp hr
  have hrun := h.run run (List.mem_of_getElem? hi)
  have hset : ∀ run' : RunTask, (∀ image ∈ run'.await.image, P image) →
      ∀ r ∈ s.runs.set i run', ∀ image ∈ r.await.image, P image := by
    intro run' hrun' r hr
    rcases List.mem_or_eq_of_mem_set hr with hold | rfl
    · exact h.run r hold
    · exact hrun'
  cases hawait : run.await with
  | sleep =>
    dsimp only
    split
    · rename_i image himage
      split
      · refine ⟨h.image, h.jpeg, hset _ fun other hother => ?_, h.written⟩
        rw [← Option.some.inj hother]
        exact h.image image himage
      · exact h
    · exact h
  | encode image =>
    rw [hawait] at hrun
    cases encoding with
    | jpeg => exact ⟨h.image, h.jpeg, hset _ hrun, h.written⟩
    | none =>
      refine ⟨h.image, h.jpeg, hset _ fun other hother => ?_, h.written⟩
      cases hother
    | raised => exact ⟨h.image, h.jpeg, fun r hr => h.run r (List.mem_of_mem_eraseIdx hr), h.written⟩
  | condition image =>
    rw [hawait] at hrun
    refine ⟨h.image, hrun, hset _ fun other hother => ?_, h.written⟩
    cases hother

section Steps
variable [Field K] [LinearOrder K] [FloorRing K] [DecidableEq Client] {float : V → FloatResult K}

/-- The image that a step brings. -/
def brought (s : Video K Client) : VideoStep K Client V → Option CameraImage
  | .call e => s.received e
  | _ => none

theorem next_shows {step : VideoStep K Client V} (h : s.Shows P k) (hn : next c float s step s')
    (hnew : ∀ image ∈ s.brought step, P image) : s'.Shows P k := by
  unfold next at hn
  cases step with
  | call e =>
    obtain ⟨-, heq⟩ := Option.ite_none_right_eq_some.mp hn
    obtain rfl := Option.some.inj heq
    rcases call_cases c float e s with ⟨-, hcall⟩ | ⟨topic, -, hreceived, hcall⟩
    · rw [hcall]
      exact h.same (fun _ hi => hi) (fun _ hj => hj) (fun _ hr => hr) fun _ => rfl
    · rw [hcall]
      refine ⟨fun image himage => ?_, h.jpeg, h.run, h.written⟩
      rw [← Option.some.inj himage]
      exact hnew _ hreceived
  | switch mode =>
    obtain rfl := Option.some.inj hn
    refine h.same (fun _ hi => ?_) (fun _ hj => ?_) (fun _ hr => hr) fun _ => rfl
    · cases hi
    · cases hj
  | stream =>
    obtain rfl := Option.some.inj hn
    exact stream_shows h
  | next_frame i timeout gone =>
    obtain ⟨stream, stream', hi, hproceed, rfl⟩ := settled hn
    exact settle_shows h hi (Stream.proceed_written hproceed)
  | write i ok =>
    obtain ⟨stream, stream', hi, hwrote, rfl⟩ := settled hn
    exact settle_shows h hi (.inl (Stream.wrote_written hwrote))
  | leave i =>
    obtain ⟨stream, stream', hi, hleave, rfl⟩ := settled hn
    exact settle_shows h hi (.inl (by rw [(Stream.leave_await hleave).2]))
  | run i encoding => exact run_shows h hn
  | close =>
    obtain rfl := Option.some.inj hn
    exact h.same (fun _ hi => hi) (fun _ hj => hj) (fun _ hr => hr) fun _ => rfl
  | close_task =>
    obtain ⟨-, heq⟩ := Option.ite_none_right_eq_some.mp hn
    obtain rfl := Option.some.inj heq
    exact h.same (fun _ hi => hi) (fun _ hj => hj) (fun _ hr => (List.mem_filter.mp hr).1) fun _ => rfl

omit [Field K] [LinearOrder K] [FloorRing K] [DecidableEq Client] in
/-- An image is numbered on, and comes from the topic of the mode. -/
theorem brought_spec {step : VideoStep K Client V} (hw : s.Watched c) {image : CameraImage}
    (h : s.brought step = some image) :
    image.seq = s.image_seq + 1 ∧ image.topic = c.image_topics s.node.bridge.mode := by
  unfold brought received at h
  split at h
  · split at h
    · obtain ⟨topic, haccepted, rfl⟩ := Option.map_eq_some_iff.mp h
      have htopic := accepted_topic haccepted
      rw [hw.topic, RobotBridge.wanted_image_topic] at htopic
      split at htopic
      · exact ⟨rfl, (Option.some.inj htopic).symm⟩
      · cases htopic
    · cases h
  · cases h

omit [Field K] [LinearOrder K] [FloorRing K] [DecidableEq Client] in
theorem settle_kept (i : Nat) (stream : Stream) (s : Video K Client) :
    (s.settle c i stream).image_seq = s.image_seq ∧
      (s.settle c i stream).node.bridge.mode = s.node.bridge.mode := by
  unfold settle remove_viewer
  dsimp only
  split
  · split
    · exact ⟨rfl, rfl⟩
    · exact ⟨rfl, rfl⟩
  · exact ⟨rfl, rfl⟩

/-- Images are counted on, and only a switch changes the mode. -/
theorem next_kept {step : VideoStep K Client V} (hn : next c float s step s') :
    s.image_seq ≤ s'.image_seq ∧
      ((∀ mode, step ≠ .switch mode) → s'.node.bridge.mode = s.node.bridge.mode) := by
  unfold next at hn
  cases step with
  | call e =>
    obtain ⟨⟨hop, -⟩, heq⟩ := Option.ite_none_right_eq_some.mp hn
    obtain rfl := Option.some.inj heq
    have hsteering := perform_steering c float e s.node.bridge hop
    have hmode := (Prod.mk.inj (Prod.mk.inj hsteering).2).1
    rcases call_cases c float e s with ⟨-, hcall⟩ | ⟨topic, -, -, hcall⟩
    · rw [hcall]
      exact ⟨le_rfl, fun _ => hmode⟩
    · rw [hcall]
      exact ⟨Nat.le_succ _, fun _ => hmode⟩
  | switch mode =>
    obtain rfl := Option.some.inj hn
    exact ⟨le_rfl, fun hstep => absurd rfl (hstep mode)⟩
  | stream =>
    obtain rfl := Option.some.inj hn
    have hadd : (s.add_viewer c).image_seq = s.image_seq ∧
        (s.add_viewer c).node.bridge.mode = s.node.bridge.mode := by
      unfold add_viewer
      dsimp only
      split <;> exact ⟨rfl, rfl⟩
    obtain ⟨hseq, hmode⟩ := settle_kept (c := c) (s.add_viewer c).streams.length
      (Stream.loop (s.add_viewer c).hub {}) { s.add_viewer c with streams := (s.add_viewer c).streams ++ [{}] }
    exact ⟨(hseq.trans hadd.1).ge, fun _ => hmode.trans hadd.2⟩
  | next_frame i timeout gone =>
    obtain ⟨stream, stream', -, -, rfl⟩ := settled hn
    exact ⟨(settle_kept i stream' s).1.ge, fun _ => (settle_kept i stream' s).2⟩
  | write i ok =>
    obtain ⟨stream, stream', -, -, rfl⟩ := settled hn
    exact ⟨(settle_kept i stream' s).1.ge, fun _ => (settle_kept i stream' s).2⟩
  | leave i =>
    obtain ⟨stream, stream', -, -, rfl⟩ := settled hn
    exact ⟨(settle_kept i stream' s).1.ge, fun _ => (settle_kept i stream' s).2⟩
  | run i encoding =>
    have hsame : s'.image_seq = s.image_seq ∧ s'.node = s.node := by
      obtain ⟨run, hi, rfl⟩ := Option.map_eq_some_iff.mp hn
      split
      · split
        · split <;> exact ⟨rfl, rfl⟩
        · exact ⟨rfl, rfl⟩
      · cases encoding <;> exact ⟨rfl, rfl⟩
      · exact ⟨rfl, rfl⟩
    exact ⟨hsame.1.ge, fun _ => by rw [hsame.2]⟩
  | close =>
    obtain rfl := Option.some.inj hn
    exact ⟨le_rfl, fun _ => rfl⟩
  | close_task =>
    obtain ⟨-, heq⟩ := Option.ite_none_right_eq_some.mp hn
    obtain rfl := Option.some.inj heq
    exact ⟨le_rfl, fun _ => rfl⟩

/-- On a run whose new images are of a kind, only such images are sent. -/
theorem run_shows_new {es : List (VideoStep K Client V)} (hr : Run (next c float) s es s') (hw : s.Watched c)
    (h : s.Shows P k)
    (hnew : ∀ image : CameraImage, s.image_seq < image.seq →
      ((∀ mode, .switch mode ∉ es) → image.topic = c.image_topics s.node.bridge.mode) → P image) :
    s'.Shows P k := by
  have hrun := hr.and_of_mem (P := fun _ step _ => step ∈ es) fun _ hstep _ _ => hstep
  have hkeep : ∀ a b step, (a.Watched c ∧ s.image_seq ≤ a.image_seq ∧
      ((∀ mode, .switch mode ∉ es) → a.node.bridge.mode = s.node.bridge.mode) ∧ a.Shows P k) →
      next c float a step b ∧ step ∈ es → b.Watched c ∧ s.image_seq ≤ b.image_seq ∧
      ((∀ mode, .switch mode ∉ es) → b.node.bridge.mode = s.node.bridge.mode) ∧ b.Shows P k := by
    intro a b step ⟨hwa, hseq, hmode, ha⟩ ⟨hn, hstep⟩
    obtain ⟨hcount, hkept⟩ := next_kept hn
    refine ⟨next_watched hwa hn, hseq.trans hcount, fun hno => ?_, next_shows ha hn fun image himage => ?_⟩
    · rw [hkept fun mode heq => hno mode (heq ▸ hstep), hmode hno]
    · obtain ⟨hnumber, htopic⟩ := brought_spec hwa himage
      exact hnew image (by omega) fun hno => by rw [htopic, hmode hno]
  exact (hrun.invariant _ ⟨hw, le_rfl, fun _ => rfl, h⟩ hkeep).2.2.2

/-- The viewers are shown what is new. Images that were received before a moment at which nobody
watched are never sent after it. After a switch of the mode, every image sent until the next
switch was received after it from the topic of the new mode, but for the one that the encoder was
working on. -/
theorem viewers_see_new_images {t : K} {es : List (VideoStep K Client V)}
    (hr : Run (next c float) (start c t) es s) :
    (s.watching = 0 → ∀ fs v, Run (next c float) s fs v →
      ∀ i, ∀ image ∈ (v.written i).drop (s.written i).length, s.image_seq < image.seq) ∧
    ∀ mode u, next c float s (.switch mode) u → ∃ stale : Option CameraImage,
      (∀ image ∈ stale, ∃ run ∈ s.runs, run.await.image = some image) ∧
      ∀ fs v, Run (next c float) u fs v → (∀ mode, .switch mode ∉ fs) →
        ∀ i, ∀ image ∈ (v.written i).drop (u.written i).length,
          stale = some image ∨ s.image_seq < image.seq ∧ image.topic = c.image_topics mode := by
  have hw := run_all_watched hr
  constructor
  · intro hidle fs v hrun
    have h : s.Shows (fun image => s.image_seq < image.seq) fun i => (s.written i).length := by
      refine ⟨fun image hi => ?_, fun image hj => ?_, fun run hrun => ?_, fun i image himage => ?_⟩
      · rw [hw.image hidle] at hi
        cases hi
      · rw [hw.jpeg hidle] at hj
        cases hj
      · rw [hw.idle hidle] at hrun
        cases hrun
      · simp at himage
    exact (run_shows_new hrun hw h fun image hseq _ => hseq).written
  · intro mode u hn
    have hwu := next_watched hw hn
    obtain rfl := Option.some.inj hn
    refine ⟨s.runs.head?.bind fun run => run.await.image, fun image himage => ?_, fun fs v hrun hno => ?_⟩
    · obtain ⟨run, hhead, hstale⟩ := Option.bind_eq_some_iff.mp himage
      exact ⟨run, List.mem_of_mem_head? hhead, hstale⟩
    · apply Shows.written
      apply run_shows_new hrun hwu
      · refine ⟨fun image hi => ?_, fun image hj => ?_, fun run hr image himage => ?_, fun i image himage => ?_⟩
        · cases hi
        · cases hj
        · -- there is one task at most
          obtain ⟨only, honly⟩ : ∃ only, s.runs = [only] :=
            List.length_eq_one_iff.mp (Nat.le_antisymm hw.one (List.length_pos_of_mem hr))
          change run ∈ s.runs at hr
          rw [honly] at hr ⊢
          obtain rfl := List.mem_singleton.mp hr
          exact .inl himage
        · simp at himage
      · intro image hseq htopic
        refine .inr ⟨hseq, ?_⟩
        rw [htopic hno]
        change c.image_topics (s.node.bridge.set_mode c mode).mode = _
        unfold RobotBridge.set_mode
        dsimp only
        split <;> rfl

end Steps

end Video

/-- The only viewer leaves after the first image. -/
def left_alone : List VideoCall := first_image ++ [.write 0 false]

theorem left_alone_shown : ((shown left_alone).map fun s => (s.watching, s.image_seq)) = some (0, 1) := by
  decide +kernel

/-- After the first image the mode is switched, and the viewer is sent the next one. -/
def other_mode : List VideoCall :=
  [.write 0 true, .call ⟨2 / 5, .update_image_subscription⟩, .call ⟨2 / 5, .on_image⟩, .run 0 .jpeg,
    .run 0 .jpeg, .run 0 .jpeg, .next_frame 0 false false]

theorem other_mode_shown : ((shown (first_image ++ [.switch .BALL])).bind fun u =>
      (shown_from u other_mode).map fun v => (u.written 0, v.written 0)) =
    some ([camera_image 1], [camera_image 1, ⟨2, "/ball/debug_image"⟩]) := by
  decide +kernel

/-- The first image is not sent again to whoever watches later; nor after a switch of the mode,
when an image from the topic of the new mode follows it. -/
theorem viewers_see_new_images_later :
    (∃ s, shown left_alone = some s ∧
      ∀ fs v, Run (Video.next web_controller_yaml float_of) s fs v →
        ∀ i, ∀ image ∈ (v.written i).drop (s.written i).length, 1 < image.seq) ∧
    ∃ s u v, shown first_image = some s ∧ Video.next web_controller_yaml float_of s (.switch .BALL) u ∧
      Run (Video.next web_controller_yaml float_of) u other_mode v ∧
      (v.written 0).drop (u.written 0).length = [⟨2, "/ball/debug_image"⟩] ∧
      ∃ stale : Option CameraImage, ∀ i, ∀ image ∈ (v.written i).drop (u.written i).length,
        stale = some image ∨ s.image_seq < image.seq ∧
          image.topic = (web_controller_yaml : Parameters Rat).image_topics .BALL := by
  constructor
  · have hshown := left_alone_shown
    obtain ⟨s, hs⟩ : ∃ s, shown left_alone = some s := Option.isSome_iff_exists.mp (by decide +kernel)
    rw [hs] at hshown
    obtain ⟨hidle, hseq⟩ : s.watching = 0 ∧ s.image_seq = 1 := by simpa using hshown
    have hnew := (Video.viewers_see_new_images (Run.of_foldlM hs)).1 hidle
    rw [hseq] at hnew
    exact ⟨s, hs, hnew⟩
  · obtain ⟨s, hs⟩ : ∃ s, shown first_image = some s := Option.isSome_iff_exists.mp (by decide +kernel)
    have hshown := other_mode_shown
    have hswitched : shown (first_image ++ [.switch .BALL]) = some (s.switch web_controller_yaml .BALL) := by
      unfold shown shown_from at hs ⊢
      rw [List.foldlM_append, hs]
      rfl
    rw [hswitched, Option.bind_some] at hshown
    obtain ⟨v, hv, hwritten⟩ := Option.map_eq_some_iff.mp hshown
    obtain ⟨hbefore, hafter⟩ := Prod.mk.inj hwritten
    have hnext : Video.next web_controller_yaml float_of s (.switch .BALL)
        (s.switch web_controller_yaml .BALL) := rfl
    have hrun : Run (Video.next web_controller_yaml float_of) _ other_mode v := Run.of_foldlM hv
    obtain ⟨stale, -, hnew⟩ := (Video.viewers_see_new_images (Run.of_foldlM hs)).2 .BALL _ hnext
    refine ⟨s, _, v, hs, hnext, hrun, ?_, stale, hnew other_mode v hrun ?_⟩
    · rw [hbefore, hafter]
      rfl
    · intro mode hswitch
      simp [other_mode] at hswitch

end IotRobot.Web
