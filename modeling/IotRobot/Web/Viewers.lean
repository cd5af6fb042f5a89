import IotRobot.Web.Authority
import IotRobot.Web.FrameHub

/-!
# What the viewers of the video are sent

Whoever watches shares one encoder task, and the images that a viewer is sent follow one another
in the order in which the bridge received them.
-/

namespace IotRobot.Web

open Lib

set_option autoImplicit false

section Bridge
variable {K Client V : Type} [Field K] [LinearOrder K] [FloorRing K] [DecidableEq Client]
variable (c : Parameters K) (float : V → FloatResult K)

/-- What decides where the video comes from. -/
def steering (s : RobotBridge K Client) := (s.streaming, s.mode, s.image_topic)

omit [FloorRing K] [LinearOrder K] [DecidableEq Client] in
theorem publish_zero_steering (s : RobotBridge K Client) : steering s.publish_zero = steering s := by
  unfold RobotBridge.publish_zero
  split <;> rfl

/-- Only `set_mode` and `set_streaming` steer the video. -/
theorem perform_steering (e : Event K Client V) (s : RobotBridge K Client) (hop : e.op.steers_video = false) :
    steering (perform c float e s) = steering s := by
  obtain ⟨now, op⟩ := e
  cases op with
  | set_mode mode => cases hop
  | set_streaming streaming => cases hop
  | on_drive_timer =>
    simp only [perform, RobotBridge.on_drive_timer]
    split
    · exact publish_zero_steering _
    · rfl
  | drive client linear angular speed =>
    have hcases := drive_cases c float now client linear angular speed s
    simp only [perform]
    generalize s.drive c float now client linear angular speed = r at hcases
    cases hcases <;> rfl
  | release client disconnected =>
    simp only [perform, RobotBridge.release]
    split
    · rfl
    · cases disconnected with
      | false => exact publish_zero_steering _
      | true => exact publish_zero_steering _
  | on_estop engaged =>
    simp only [perform, RobotBridge.on_estop]
    split
    · rfl
    · split
      · rfl
      · cases engaged <;> rfl
  | set_estop engaged => cases engaged <;> rfl
  | on_estop_timer =>
    simp only [perform, RobotBridge.on_estop_timer]
    split <;> rfl
  | on_estop_startup =>
    simp only [perform, RobotBridge.on_estop_startup]
    split <;> rfl
  | aim_gizmo client yaw pitch =>
    simp only [perform, RobotBridge.aim_gizmo]
    split
    · rfl
    · split
      · rfl
      · split
        · rfl
        · split
          · rfl
          · split <;> rfl
  | on_battery voltage =>
    simp only [perform, RobotBridge.on_battery]
    split
    · split <;> rfl
    · rfl
  | on_image =>
    simp only [perform, RobotBridge.on_image]
    split <;> rfl
  | update_image_subscription =>
    simp only [perform, RobotBridge.update_image_subscription]
    split <;> split <;> rfl
  | snapshot =>
    simp only [perform, RobotBridge.snapshot]
    split <;> rfl
  | on_range side range => rfl
  | on_odom linear angular => rfl
  | on_person_status data => rfl
  | on_graph_timer follower detector => rfl
  | may_control client => rfl

omit [Field K] [LinearOrder K] [FloorRing K] [DecidableEq Client] in
/-- An image is accepted only from the topic that the bridge wants. -/
theorem accepted_topic {s : RobotBridge K Client} {topic : String} (h : Video.accepted s = some topic) :
    s.image_topic = some topic := by
  unfold Video.accepted at h
  split at h
  · cases h
  · rename_i hsub
    rw [not_or, not_not] at hsub
    exact hsub.2.symm.trans h

end Bridge

/-- A handler goes on from the wait for a frame. -/
theorem Stream.proceed_await {hub : FrameHub} {timeout gone : Bool} {stream stream' : Stream}
    (h : stream.proceed hub timeout gone = some stream') : stream.await = some .next_frame := by
  unfold Stream.proceed at h
  split at h
  · assumption
  · cases h

theorem Stream.wrote_await {hub : FrameHub} {ok : Bool} {stream stream' : Stream}
    (h : stream.wrote hub ok = some stream') : stream.await = some .write := by
  unfold Stream.wrote at h
  split at h
  · assumption
  · cases h

theorem Stream.leave_await {stream stream' : Stream} (h : stream.leave = some stream') :
    stream.await.isSome = true ∧ stream' = { stream with await := none } := by
  unfold Stream.leave at h
  split at h
  · cases h
  · rename_i hw
    exact ⟨Option.isSome_iff_ne_none.mpr hw, (Option.some.inj h).symm⟩

namespace Video
variable {K Client V : Type} [Field K] {c : Parameters K}
variable {s s' : Video K Client}

/-- The number of handlers that have not returned. -/
def watching (s : Video K Client) : Nat := s.streams.countP fun stream => stream.await.isSome

/-- `viewers` handlers watch; the bridge streams the topic of its mode and the encoder runs only
while there are some. -/
structure Watched (c : Parameters K) (s : Video K Client) : Prop where
  viewers : s.hub.viewers = s.watching
  streaming : s.node.bridge.streaming = true ↔ 0 < s.watching
  topic : s.node.bridge.image_topic = s.node.bridge.wanted_image_topic c
  image : s.watching = 0 → s.image = none
  jpeg : s.watching = 0 → s.hub.jpeg = none
  task : ∀ run ∈ s.runs, s.hub.task = some run.id
  one : s.runs.length ≤ 1
  idle : s.watching = 0 → s.runs = []

omit [Field K] in
theorem cancel_task (h : ∀ run ∈ s.runs, s.hub.task = some run.id) : (s.cancel s.hub.task).runs = [] := by
  unfold cancel
  apply List.filter_eq_nil_iff.mpr
  intro run hrun
  simp [h run hrun]

omit [Field K] in
/-- A state that differs in what no clause of `Watched` reads. -/
theorem Watched.same (h : s.Watched c) (hbridge : steering s'.node.bridge = steering s.node.bridge)
    (hstreams : s'.watching = s.watching) (hviewers : s'.hub.viewers = s.hub.viewers)
    (himage : s.watching = 0 → s'.image = none) (hjpeg : s.watching = 0 → s'.hub.jpeg = none)
    (htask : ∀ run ∈ s'.runs, s'.hub.task = some run.id) (hone : s'.runs.length ≤ s.runs.length) :
    s'.Watched c := by
  obtain ⟨hstreaming, hrest⟩ := Prod.mk.inj hbridge
  obtain ⟨hmode, htopic⟩ := Prod.mk.inj hrest
  constructor
  · rw [hviewers, hstreams, h.viewers]
  · rw [hstreaming, hstreams, h.streaming]
  · rw [htopic, h.topic]
    unfold RobotBridge.wanted_image_topic
    rw [hstreaming, hmode]
  · rw [hstreams]
    exact himage
  · rw [hstreams]
    exact hjpeg
  · exact htask
  · exact hone.trans h.one
  · rw [hstreams]
    intro hnone
    have hruns := congrArg List.length (h.idle hnone)
    exact List.eq_nil_of_length_eq_zero (Nat.le_zero.mp (hone.trans hruns.le))

theorem start_watched [LinearOrder K] [DecidableEq Client] (t : K) :
    (start c t : Video K Client).Watched c := by
  have hbridge : (Web.start c t : Node K Client).bridge.streaming = false ∧
      (Web.start c t : Node K Client).bridge.image_topic = none := by
    unfold Web.start RobotBridge.init
    split <;> exact ⟨rfl, rfl⟩
  constructor
  · rfl
  · simp [start, watching, hbridge.1]
  · unfold RobotBridge.wanted_image_topic
    simp [start, hbridge.1, hbridge.2]
  · exact fun _ => rfl
  · exact fun _ => rfl
  · intro run hrun
    cases hrun
  · simp [start]
  · exact fun _ => rfl

omit [Field K] in
theorem watching_set {i : Nat} {stream : Stream} (hi : s.streams[i]? = some stream)
    (hw : stream.await.isSome = true) (stream' : Stream) :
    (s.streams.set i stream').countP (fun stream => stream.await.isSome) + 1 =
      s.watching + if stream'.await.isSome then 1 else 0 := by
  obtain ⟨hlt, hget⟩ := List.getElem?_eq_some_iff.mp hi
  have hpos : 0 < s.watching := List.countP_pos_iff.mpr ⟨stream, List.mem_of_getElem? hi, hw⟩
  rw [List.countP_set hlt, hget, if_pos hw]
  unfold watching at *
  omega

omit [Field K] in
/-- One viewer fewer; the last one stops the stream and the encoder. -/
theorem remove_viewer_watched (h : s.Watched c) {streams : List Stream}
    (hstreams : streams.countP (fun stream => stream.await.isSome) + 1 = s.watching) :
    ({ s with streams := streams }.remove_viewer c).Watched c := by
  have hviewers := h.viewers
  have hstreaming := h.streaming.mpr (by omega)
  unfold remove_viewer
  dsimp only
  by_cases hlast : s.hub.viewers - 1 = 0
  · have hnone : streams.countP (fun stream => stream.await.isSome) = 0 := by omega
    rw [if_pos hlast]
    have hruns : (s.runs.filter fun run => some run.id ≠ s.hub.task) = [] := cancel_task h.task
    constructor
    · simp [watching, cancel, set_streaming, hnone, hlast]
    · simp [watching, cancel, set_streaming, RobotBridge.set_streaming, hnone]
    · rfl
    · exact fun _ => rfl
    · exact fun _ => rfl
    · intro run hrun
      change run ∈ s.runs.filter fun run => some run.id ≠ s.hub.task at hrun
      rw [hruns] at hrun
      cases hrun
    · change (s.runs.filter fun run => some run.id ≠ s.hub.task).length ≤ 1
      rw [hruns]
      exact Nat.zero_le 1
    · exact fun _ => hruns
  · have hsome : 0 < streams.countP (fun stream => stream.await.isSome) := by omega
    rw [if_neg hlast]
    constructor
    · change s.hub.viewers - 1 = (streams.countP (fun stream => stream.await.isSome) : Nat)
      omega
    · exact ⟨fun _ => hsome, fun _ => hstreaming⟩
    · exact h.topic
    · exact fun hnone => absurd hnone hsome.ne'
    · exact fun hnone => absurd hnone hsome.ne'
    · exact h.task
    · exact h.one
    · exact fun hnone => absurd hnone hsome.ne'

omit [Field K] in
theorem settle_watched (h : s.Watched c) {i : Nat} {stream : Stream}
    (hi : s.streams[i]? = some stream) (hw : stream.await.isSome = true) (stream' : Stream) :
    (s.settle c i stream').Watched c := by
  have hcount := watching_set hi hw stream'
  unfold settle
  dsimp only
  by_cases hnone : stream'.await = none
  · rw [if_pos hnone]
    apply remove_viewer_watched h
    simpa [hnone] using hcount
  · rw [if_neg hnone]
    have hsome := Option.isSome_iff_ne_none.mpr hnone
    rw [if_pos hsome] at hcount
    exact h.same rfl (Nat.add_right_cancel hcount) rfl h.image h.jpeg h.task le_rfl

omit [Field K] in
/-- One viewer more; the first one starts the stream and an encoder. -/
theorem add_viewer_watched (h : s.Watched c) (stream : Stream) (hw : stream.await.isSome = true) :
    { s.add_viewer c with streams := s.streams ++ [stream] }.Watched c := by
  have hviewers := h.viewers
  have hcount : (s.streams ++ [stream]).countP (fun stream => stream.await.isSome) = s.watching + 1 := by
    simp [watching, hw]
  unfold add_viewer
  dsimp only
  by_cases hfirst : s.hub.viewers + 1 = 1
  · have hnone : s.watching = 0 := by omega
    rw [if_pos hfirst]
    constructor
    · change s.hub.viewers + 1 = ((s.streams ++ [stream]).countP fun stream => stream.await.isSome : Nat)
      omega
    · simp [watching, set_streaming, RobotBridge.set_streaming, hw]
    · rfl
    · exact fun _ => h.image hnone
    · exact fun _ => h.jpeg hnone
    · intro run hrun
      change run ∈ s.runs ++ [(⟨s.created, none, .sleep⟩ : RunTask)] at hrun
      rw [h.idle hnone, List.nil_append, List.mem_singleton] at hrun
      rw [hrun]
      rfl
    · change (s.runs ++ [(⟨s.created, none, .sleep⟩ : RunTask)]).length ≤ 1
      rw [h.idle hnone]
      exact le_rfl
    · intro hzero
      change (s.streams ++ [stream]).countP (fun stream => stream.await.isSome) = 0 at hzero
      omega
  · have hsome : 0 < s.watching := by omega
    have hmore : 0 < (s.streams ++ [stream]).countP fun stream => stream.await.isSome := by omega
    rw [if_neg hfirst]
    constructor
    · change s.hub.viewers + 1 = ((s.streams ++ [stream]).countP fun stream => stream.await.isSome : Nat)
      omega
    · exact ⟨fun _ => hmore, fun _ => h.streaming.mpr hsome⟩
    · exact h.topic
    · exact fun hzero => absurd hzero hmore.ne'
    · exact fun hzero => absurd hzero hmore.ne'
    · exact h.task
    · exact h.one
    · exact fun hzero => absurd hzero hmore.ne'

omit [Field K] in
theorem stream_watched (h : s.Watched c) : (s.stream c).Watched c := by
  unfold stream
  dsimp only
  have hstreams : (s.add_viewer c).streams = s.streams := by
    unfold add_viewer
    dsimp only
    split <;> rfl
  rw [hstreams]
  have hmore := add_viewer_watched h {} rfl
  exact settle_watched hmore (List.getElem?_concat_length) rfl _

omit [Field K] in
theorem run_watched (h : s.Watched c) {i : Nat} {encoding : Encoding} (hr : s.run i encoding = some s') :
    s'.Watched c := by
  obtain ⟨run, hi, rfl⟩ := Option.map_eq_some_iff.mp hr
  have hmem := List.mem_of_getElem? hi
  have hbusy : s.watching ≠ 0 := by
    intro hnone
    rw [h.idle hnone] at hmem
    exact List.not_mem_nil hmem
  have hset : ∀ run' : RunTask, run'.id = run.id → ∀ r ∈ s.runs.set i run', s.hub.task = some r.id := by
    intro run' hid r hr
    rcases List.mem_or_eq_of_mem_set hr with hold | rfl
    · exact h.task r hold
    · rw [hid]
      exact h.task run hmem
  cases hawait : run.await with
  | sleep =>
    dsimp only
    split
    · split
      · exact h.same rfl rfl rfl h.image h.jpeg (hset _ rfl) (by simp)
      · exact h
    · exact h
  | encode image =>
    cases encoding with
    | jpeg => exact h.same rfl rfl rfl h.image h.jpeg (hset _ rfl) (by simp)
    | none => exact h.same rfl rfl rfl h.image h.jpeg (hset _ rfl) (by simp)
    | raised =>
      exact h.same rfl rfl rfl h.image h.jpeg (fun r hr => h.task r (List.mem_of_mem_eraseIdx hr))
        (List.length_eraseIdx_le ..)
  | condition image =>
    exact h.same rfl rfl rfl h.image (fun hnone => absurd hnone hbusy) (hset _ rfl) (by simp)

theorem switch_watched (h : s.Watched c) (mode : Mode) : (s.switch c mode).Watched c := by
  have hbridge : (s.node.bridge.set_mode c mode).streaming = s.node.bridge.streaming ∧
      (s.node.bridge.set_mode c mode).image_topic =
        (s.node.bridge.set_mode c mode).wanted_image_topic c := by
    unfold RobotBridge.set_mode
    dsimp only
    split <;> exact ⟨rfl, rfl⟩
  constructor
  · exact h.viewers
  · change (s.node.bridge.set_mode c mode).streaming = true ↔ _
    rw [hbridge.1]
    exact h.streaming
  · exact hbridge.2
  · exact fun _ => rfl
  · exact fun _ => rfl
  · exact h.task
  · exact h.one
  · exact h.idle

section Steps
variable [LinearOrder K] [FloorRing K] [DecidableEq Client] {float : V → FloatResult K}

omit [Field K] [LinearOrder K] [FloorRing K] [DecidableEq Client] in
theorem settled {i : Nat} {f : Stream → Option Stream} {g : Stream → Video K Client}
    (h : (s.streams[i]?.bind fun stream => (f stream).map g) = some s') :
    ∃ stream stream', s.streams[i]? = some stream ∧ f stream = some stream' ∧ s' = g stream' := by
  obtain ⟨stream, hi, h⟩ := Option.bind_eq_some_iff.mp h
  obtain ⟨stream', hf, rfl⟩ := Option.map_eq_some_iff.mp h
  exact ⟨stream, stream', hi, hf, rfl⟩

/-- What a call brings to the hub: nothing, or one image. -/
theorem call_cases (c : Parameters K) (float : V → FloatResult K) (e : Event K Client V)
    (s : Video K Client) :
    (s.received e = none ∧ s.call c float e = { s with node := ⟨e.now, perform c float e s.node.bridge⟩ }) ∨
    ∃ topic, s.node.bridge.image_topic = some topic ∧ s.received e = some ⟨s.image_seq + 1, topic⟩ ∧
      s.call c float e =
        { s with
          node := ⟨e.now, perform c float e s.node.bridge⟩
          image := some ⟨s.image_seq + 1, topic⟩
          image_seq := s.image_seq + 1 } := by
  unfold call
  dsimp only
  cases hreceived : s.received e with
  | none => exact .inl ⟨rfl, rfl⟩
  | some image =>
    have himage := hreceived
    unfold received at himage
    split at himage
    · obtain ⟨topic, htopic, rfl⟩ := Option.map_eq_some_iff.mp himage
      exact .inr ⟨topic, accepted_topic htopic, rfl, rfl⟩
    · cases himage

theorem call_watched (h : s.Watched c) {e : Event K Client V} (hop : e.op.steers_video = false) :
    (s.call c float e).Watched c := by
  have hbridge := perform_steering c float e s.node.bridge hop
  rcases call_cases c float e s with ⟨-, hcall⟩ | ⟨topic, htopic, -, hcall⟩
  · rw [hcall]
    exact h.same hbridge rfl rfl h.image h.jpeg h.task le_rfl
  · rw [hcall]
    refine h.same hbridge rfl rfl (fun hnone => ?_) h.jpeg h.task le_rfl
    -- a bridge that does not stream wants no topic
    have hstreaming : s.node.bridge.streaming = false := by
      simpa [hnone] using h.streaming
    rw [h.topic, RobotBridge.wanted_image_topic, hstreaming] at htopic
    cases htopic

theorem next_watched {step : VideoStep K Client V} (h : s.Watched c) (hn : next c float s step s') :
    s'.Watched c := by
  unfold next at hn
  cases step with
  | call e =>
    obtain ⟨⟨hop, -⟩, heq⟩ := Option.ite_none_right_eq_some.mp hn
    obtain rfl := Option.some.inj heq
    exact call_watched h hop
  | switch mode =>
    obtain rfl := Option.some.inj hn
    exact switch_watched h mode
  | stream =>
    obtain rfl := Option.some.inj hn
    exact stream_watched h
  | next_frame i timeout gone =>
    obtain ⟨stream, stream', hi, hproceed, rfl⟩ := settled hn
    exact settle_watched h hi (by rw [Stream.proceed_await hproceed]; rfl) _
  | write i ok =>
    obtain ⟨stream, stream', hi, hwrote, rfl⟩ := settled hn
    exact settle_watched h hi (by rw [Stream.wrote_await hwrote]; rfl) _
  | leave i =>
    obtain ⟨stream, stream', hi, hleave, rfl⟩ := settled hn
    exact settle_watched h hi (Stream.leave_await hleave).1 _
  | run i encoding => exact run_watched h hn
  | close =>
    obtain rfl := Option.some.inj hn
    exact h.same rfl rfl rfl h.image h.jpeg h.task le_rfl
  | close_task =>
    obtain ⟨-, heq⟩ := Option.ite_none_right_eq_some.mp hn
    obtain rfl := Option.some.inj heq
    have hruns := cancel_task h.task
    change (s.cancel s.hub.task).Watched c
    refine h.same rfl rfl rfl h.image h.jpeg ?_ ?_
    · rw [hruns]
      intro run hrun
      cases hrun
    · rw [hruns]
      exact Nat.zero_le _

theorem run_all_watched {t : K} {es : List (VideoStep K Client V)} (hr : Run (next c float) (start c t) es s) :
    s.Watched c :=
  hr.invariant (Watched c) (start_watched t) fun _ _ _ h hn => next_watched h hn

end Steps

/-- What a handler has written, when the newest JPEG so far was of the image `newest`. Once the hub is
closed a handler may write the last JPEG again, and returns. -/
structure Sorted (newest : Nat) (hub : FrameHub) (stream : Stream) : Prop where
  seen : ∀ n ∈ stream.seen, n ≤ hub.seq
  le : ∀ image ∈ stream.written, image.seq ≤ newest
  lt : stream.seen ≠ some hub.seq → ∀ image ∈ stream.written, image.seq < newest
  sorted : stream.written.Pairwise (·.seq ≤ ·.seq)
  strict : hub.closed = false ∨ stream.await = some .next_frame → stream.written.Pairwise (·.seq < ·.seq)
  but_last : stream.written.dropLast.Pairwise (·.seq < ·.seq)

/-- A task works on images that are newer than the newest JPEG. -/
def Newer (newest image_seq : Nat) (latest : Option CameraImage) (run : RunTask) : Prop :=
  match run.await.image with
  | none =>
    (run.encoded = none → ∀ image ∈ latest, newest < image.seq) ∧
      ∀ n ∈ run.encoded, newest ≤ n ∧ n ≤ image_seq
  | some image => run.encoded = some image.seq ∧ newest < image.seq ∧ image.seq ≤ image_seq

structure Ordered (newest : Nat) (s : Video K Client) : Prop where
  image : ∀ image ∈ s.image, image.seq = s.image_seq
  bound : newest ≤ s.image_seq
  jpeg : ∀ image ∈ s.hub.jpeg, image.seq = newest
  run : ∀ run ∈ s.runs, Newer newest s.image_seq s.image run
  stream : ∀ stream ∈ s.streams, Sorted newest s.hub stream

section Orders
variable {newest : Nat} {hub : FrameHub} {stream stream' : Stream}

omit [Field K] in
theorem start_ordered [Field K] [LinearOrder K] [DecidableEq Client] (t : K) :
    (start c t : Video K Client).Ordered 0 := by
  constructor
  · intro image himage
    cases himage
  · exact Nat.zero_le _
  · intro image himage
    cases himage
  · intro run hrun
    cases hrun
  · intro stream hstream
    cases hstream

theorem Sorted.start (newest : Nat) (hub : FrameHub) : Sorted newest hub {} := by
  constructor <;> simp

/-- The rest of the hub does not matter. -/
theorem Sorted.same {hub' : FrameHub} (h : Sorted newest hub stream) (hseq : hub'.seq = hub.seq)
    (hclosed : hub'.closed = hub.closed) : Sorted newest hub' stream := by
  obtain ⟨hseen, hle, hlt, hsorted, hstrict, hlast⟩ := h
  exact ⟨hseq ▸ hseen, hle, hseq ▸ hlt, hsorted, hclosed ▸ hstrict, hlast⟩

/-- A handler that returns, or goes on in a loop that has not ended. -/
theorem Sorted.await (h : Sorted newest hub stream) {await : Option StreamAwait}
    (hgo : await = some .next_frame → hub.closed = false ∨ stream.await = some .next_frame) :
    Sorted newest hub { stream with await := await } := by
  refine ⟨h.seen, h.le, h.lt, h.sorted, fun hstrict => ?_, h.but_last⟩
  rcases hstrict with hopen | hnext
  · exact h.strict (.inl hopen)
  · exact h.strict (hgo hnext)

theorem Sorted.loop (h : Sorted newest hub stream) : Sorted newest hub (stream.loop hub) := by
  apply h.await
  intro hgo
  split at hgo
  · cases hgo
  · rename_i hopen
    exact .inl (Bool.eq_false_of_not_eq_true hopen)

/-- A handler that takes note of the newest JPEG. -/
theorem Sorted.note (h : Sorted newest hub stream) : Sorted newest hub { stream with seen := some hub.seq } := by
  refine ⟨fun n hn => ?_, h.le, fun hne => absurd rfl hne, h.sorted, h.strict, h.but_last⟩
  exact (Option.some.inj hn).ge

/-- A handler that writes the newest JPEG. -/
theorem Sorted.write (h : Sorted newest hub stream) (hawait : stream.await = some .next_frame)
    (hnew : some hub.seq ≠ stream.seen ∨ hub.closed) {image : CameraImage} (himage : image.seq = newest) :
    Sorted newest hub
      { stream with seen := some hub.seq, await := some .write, written := stream.written ++ [image] } := by
  have hle : ∀ other ∈ stream.written ++ [image], other.seq ≤ newest := by
    intro other hother
    rcases List.mem_append.mp hother with hold | hlast
    · exact h.le other hold
    · rw [List.mem_singleton.mp hlast, himage]
  refine ⟨fun n hn => (Option.some.inj hn).ge, hle, fun hne => absurd rfl hne, ?_, fun hstrict => ?_, ?_⟩
  · apply List.pairwise_append.mpr
    refine ⟨h.sorted, List.pairwise_singleton _ _, fun a ha b hb => ?_⟩
    rw [List.mem_singleton.mp hb, himage]
    exact h.le a ha
  · -- a hub that is not closed has a JPEG that the handler has not seen
    have hopen : hub.closed = false := by simpa using hstrict
    have hne : stream.seen ≠ some hub.seq := by
      rcases hnew with hne | hclosed
      · exact hne.symm
      · rw [hopen] at hclosed
        cases hclosed
    apply List.pairwise_append.mpr
    refine ⟨h.strict (.inl hopen), List.pairwise_singleton _ _, fun a ha b hb => ?_⟩
    rw [List.mem_singleton.mp hb, himage]
    exact h.lt hne a ha
  · rw [List.dropLast_concat]
    exact h.strict (.inr hawait)

theorem Sorted.proceed {timeout gone : Bool} (h : Sorted newest hub stream)
    (hjpeg : ∀ image ∈ hub.jpeg, image.seq = newest) (hp : stream.proceed hub timeout gone = some stream') :
    Sorted newest hub stream' := by
  have hawait := Stream.proceed_await hp
  unfold Stream.proceed at hp
  rw [if_pos hawait] at hp
  obtain ⟨⟨jpeg, seen⟩, hframe, rfl⟩ := Option.map_eq_some_iff.mp hp
  unfold FrameHub.next_frame at hframe
  have hseen : Sorted newest hub { stream with seen := seen } ∧
      ∀ image ∈ jpeg, (some hub.seq ≠ stream.seen ∨ hub.closed) ∧ seen = some hub.seq ∧ image.seq = newest := by
    split at hframe
    · obtain ⟨rfl, rfl⟩ := Prod.mk.inj (Option.some.inj hframe)
      refine ⟨h, fun image himage => ?_⟩
      cases himage
    · split at hframe
      · rename_i hnew
        obtain ⟨rfl, rfl⟩ := Prod.mk.inj (Option.some.inj hframe)
        exact ⟨h.note, fun image himage => ⟨by simpa using hnew, rfl, hjpeg image himage⟩⟩
      · cases hframe
  dsimp only
  split
  · apply hseen.1.await
    intro hgo
    cases hgo
  · cases jpeg with
    | none => exact hseen.1.loop
    | some image =>
      obtain ⟨hnew, rfl, himage⟩ := hseen.2 image rfl
      exact h.write hawait hnew himage

theorem Sorted.wrote {ok : Bool} (h : Sorted newest hub stream) (hw : stream.wrote hub ok = some stream') :
    Sorted newest hub stream' := by
  unfold Stream.wrote at hw
  rw [if_pos (Stream.wrote_await hw)] at hw
  obtain rfl := Option.some.inj hw
  cases ok with
  | true => exact h.loop
  | false =>
    apply h.await
    intro hgo
    cases hgo

theorem Sorted.leave (h : Sorted newest hub stream) (hl : stream.leave = some stream') :
    Sorted newest hub stream' := by
  rw [(Stream.leave_await hl).2]
  apply h.await
  intro hgo
  cases hgo

/-- A newer JPEG: every handler has older ones. -/
theorem Sorted.newer (h : Sorted newest hub stream) {image : CameraImage} (hnew : newest < image.seq) :
    Sorted image.seq { hub with jpeg := some image, seq := hub.seq + 1 } stream := by
  refine ⟨fun n hn => (h.seen n hn).trans (Nat.le_succ _), fun other hother => (h.le other hother).trans hnew.le,
    fun _ other hother => (h.le other hother).trans_lt hnew, h.sorted, h.strict, h.but_last⟩

omit [Field K] in
/-- Some of it forgotten, and handlers that go on. -/
theorem Ordered.same (h : s.Ordered newest) (hseq : s'.image_seq = s.image_seq)
    (himage : ∀ image ∈ s'.image, image ∈ s.image) (hjpeg : ∀ image ∈ s'.hub.jpeg, image ∈ s.hub.jpeg)
    (hrun : ∀ run ∈ s'.runs, run ∈ s.runs) (hstream : ∀ stream ∈ s'.streams, Sorted newest s'.hub stream) :
    s'.Ordered newest := by
  refine ⟨fun image hi => ?_, hseq ▸ h.bound, fun image hi => h.jpeg image (hjpeg image hi), fun run hr => ?_,
    hstream⟩
  · rw [hseq]
    exact h.image image (himage image hi)
  · have hnewer := h.run run (hrun run hr)
    unfold Newer at *
    rw [hseq]
    split at hnewer
    · exact ⟨fun hnone image hi => hnewer.1 hnone image (himage image hi), hnewer.2⟩
    · exact hnewer

omit [Field K] in
theorem remove_viewer_ordered (h : s.Ordered newest) : (s.remove_viewer c).Ordered newest := by
  unfold remove_viewer
  dsimp only
  split
  · refine h.same rfl (fun _ hi => ?_) (fun _ hj => ?_) (fun _ hr => (List.mem_filter.mp hr).1)
      fun stream hs => (h.stream stream hs).same rfl rfl
    · cases hi
    · cases hj
  · exact h.same rfl (fun _ hi => hi) (fun _ hj => hj) (fun _ hr => hr)
      fun stream hs => (h.stream stream hs).same rfl rfl

omit [Field K] in
theorem settle_ordered (h : s.Ordered newest) {i : Nat} (hstream : Sorted newest s.hub stream) :
    (s.settle c i stream).Ordered newest := by
  have hset : { s with streams := s.streams.set i stream }.Ordered newest := by
    refine h.same rfl (fun _ hi => hi) (fun _ hj => hj) (fun _ hr => hr) fun other hother => ?_
    rcases List.mem_or_eq_of_mem_set hother with hold | rfl
    · exact h.stream other hold
    · exact hstream
  unfold settle
  dsimp only
  split
  · exact remove_viewer_ordered hset
  · exact hset

omit [Field K] in
theorem stream_ordered (hw : s.Watched c) (h : s.Ordered newest) : (s.stream c).Ordered newest := by
  let new : Stream := {}
  have hmore : { s.add_viewer c with streams := s.streams ++ [new] }.Ordered newest := by
    have hstream : ∀ stream ∈ s.streams ++ [new], Sorted newest s.hub stream := by
      intro stream hstream
      rcases List.mem_append.mp hstream with hold | hnew
      · exact h.stream stream hold
      · rw [List.mem_singleton.mp hnew]
        exact .start newest s.hub
    unfold add_viewer
    dsimp only
    split
    · rename_i hfirst
      have hviewers := hw.viewers
      have hnone := hw.image (by omega)
      refine ⟨h.image, h.bound, h.jpeg, fun run hrun => ?_, fun stream hs => (hstream stream hs).same rfl rfl⟩
      rcases List.mem_append.mp hrun with hold | hnew
      · exact h.run run hold
      · -- nobody watched, so there is no image
        rw [List.mem_singleton.mp hnew]
        refine ⟨fun _ image himage => ?_, fun n hn => by cases hn⟩
        change image ∈ s.image at himage
        rw [hnone] at himage
        cases himage
    · exact h.same rfl (fun _ hi => hi) (fun _ hj => hj) (fun _ hr => hr)
        fun stream hs => (hstream stream hs).same rfl rfl
  have hstreams : (s.add_viewer c).streams = s.streams := by
    unfold add_viewer
    dsimp only
    split <;> rfl
  unfold stream
  dsimp only
  rw [hstreams]
  exact settle_ordered hmore (Sorted.start newest _).loop

omit [Field K] in
/-- The encoder keeps the order; it may publish a JPEG that is newer than all before. -/
theorem run_ordered (hone : s.runs.length ≤ 1) (h : s.Ordered newest) {i : Nat} {encoding : Encoding}
    (hr : s.run i encoding = some s') : ∃ newest', s'.Ordered newest' := by
  obtain ⟨run, hi, rfl⟩ := Option.map_eq_some_iff.mp hr
  obtain ⟨hlt, -⟩ := List.getElem?_eq_some_iff.mp hi
  have hrun := h.run run (List.mem_of_getElem? hi)
  have honly : ∀ run' : RunTask, ∀ r ∈ s.runs.set i run', r = run' := by
    obtain ⟨only, honly⟩ : ∃ only, s.runs = [only] := List.length_eq_one_iff.mp (by omega)
    intro run' r hr
    rw [honly] at hr hlt
    obtain rfl : i = 0 := by simpa using hlt
    exact List.mem_singleton.mp hr
  unfold Newer at hrun
  cases hawait : run.await with
  | sleep =>
    rw [hawait] at hrun
    refine ⟨newest, ?_⟩
    dsimp only
    split
    · rename_i image himage
      have hseq := h.image image himage
      split
      · rename_i hfresh
        refine ⟨h.image, h.bound, h.jpeg, fun r hr => ?_, h.stream⟩
        rw [honly _ r hr]
        refine ⟨by rw [hseq], ?_, hseq.le⟩
        cases hencoded : run.encoded with
        | none => exact hrun.1 hencoded image himage
        | some n =>
          have hn := hrun.2 n hencoded
          have hne : s.image_seq ≠ n := fun heq => hfresh (by rw [hencoded, heq])
          omega
      · exact h
    · exact h
  | encode image =>
    rw [hawait] at hrun
    refine ⟨newest, ?_⟩
    cases encoding with
    | jpeg =>
      refine ⟨h.image, h.bound, h.jpeg, fun r hr => ?_, h.stream⟩
      rw [honly _ r hr]
      exact hrun
    | none =>
      refine ⟨h.image, h.bound, h.jpeg, fun r hr => ?_, h.stream⟩
      rw [honly _ r hr]
      obtain ⟨hencoded, hnew, hle⟩ := hrun
      refine ⟨fun hnone => ?_, fun n hn => ?_⟩
      · rw [hencoded] at hnone
        cases hnone
      · rw [hencoded] at hn
        obtain rfl := Option.some.inj hn
        exact ⟨hnew.le, hle⟩
    | raised =>
      exact h.same rfl (fun _ hi => hi) (fun _ hj => hj) (fun _ hr => List.mem_of_mem_eraseIdx hr) h.stream
  | condition image =>
    rw [hawait] at hrun
    obtain ⟨hencoded, hnew, hle⟩ := hrun
    refine ⟨image.seq, h.image, hle, fun other hother => ?_, fun r hr => ?_, fun stream hs => ?_⟩
    · rw [Option.some.inj hother]
    · rw [honly _ r hr]
      refine ⟨fun hnone => ?_, fun n hn => ?_⟩
      · rw [hencoded] at hnone
        cases hnone
      · rw [hencoded] at hn
        obtain rfl := Option.some.inj hn
        exact ⟨le_rfl, hle⟩
    · exact (h.stream stream hs).newer hnew

end Orders

section Steps
variable [LinearOrder K] [FloorRing K] [DecidableEq Client] {float : V → FloatResult K} {newest : Nat}

/-- An image that the bridge receives is newer than all before. -/
theorem call_ordered (h : s.Ordered newest) (e : Event K Client V) : (s.call c float e).Ordered newest := by
  rcases call_cases c float e s with ⟨-, hcall⟩ | ⟨topic, -, -, hcall⟩
  · rw [hcall]
    exact h.same rfl (fun _ hi => hi) (fun _ hj => hj) (fun _ hr => hr) h.stream
  · rw [hcall]
    have hbound := h.bound
    refine ⟨fun image himage => ?_, hbound.trans (Nat.le_succ _), h.jpeg, fun run hrun => ?_, h.stream⟩
    · rw [← Option.some.inj himage]
    · have hnewer := h.run run hrun
      unfold Newer at *
      split at hnewer
      · refine ⟨fun _ image himage => ?_, fun n hn => ?_⟩
        · rw [← Option.some.inj himage]
          exact Nat.lt_succ_of_le hbound
        · exact ⟨(hnewer.2 n hn).1, (hnewer.2 n hn).2.trans (Nat.le_succ _)⟩
      · exact ⟨hnewer.1, hnewer.2.1, hnewer.2.2.trans (Nat.le_succ _)⟩

theorem next_ordered {step : VideoStep K Client V} (hw : s.Watched c) (h : s.Ordered newest)
    (hn : next c float s step s') : ∃ newest', s'.Ordered newest' := by
  unfold next at hn
  cases step with
  | call e =>
    obtain ⟨-, heq⟩ := Option.ite_none_right_eq_some.mp hn
    obtain rfl := Option.some.inj heq
    exact ⟨newest, call_ordered h e⟩
  | switch mode =>
    obtain rfl := Option.some.inj hn
    refine ⟨newest, h.same rfl (fun _ hi => by cases hi) (fun _ hj => by cases hj) (fun _ hr => hr) ?_⟩
    exact fun stream hs => (h.stream stream hs).same rfl rfl
  | stream =>
    obtain rfl := Option.some.inj hn
    exact ⟨newest, stream_ordered hw h⟩
  | next_frame i timeout gone =>
    obtain ⟨stream, stream', hi, hproceed, rfl⟩ := settled hn
    exact ⟨newest, settle_ordered h ((h.stream stream (List.mem_of_getElem? hi)).proceed h.jpeg hproceed)⟩
  | write i ok =>
    obtain ⟨stream, stream', hi, hwrote, rfl⟩ := settled hn
    exact ⟨newest, settle_ordered h ((h.stream stream (List.mem_of_getElem? hi)).wrote hwrote)⟩
  | leave i =>
    obtain ⟨stream, stream', hi, hleave, rfl⟩ := settled hn
    exact ⟨newest, settle_ordered h ((h.stream stream (List.mem_of_getElem? hi)).leave hleave)⟩
  | run i encoding => exact run_ordered hw.one h hn
  | close =>
    obtain rfl := Option.some.inj hn
    refine ⟨newest, h.same rfl (fun _ hi => hi) (fun _ hj => hj) (fun _ hr => hr) ?_⟩
    intro stream hstream
    obtain ⟨hseen, hle, hlt, hsorted, hstrict, hlast⟩ := h.stream stream hstream
    refine ⟨hseen, hle, hlt, hsorted, fun hopen => ?_, hlast⟩
    rcases hopen with hopen | hnext
    · cases hopen
    · exact hstrict (.inr hnext)
  | close_task =>
    obtain ⟨-, heq⟩ := Option.ite_none_right_eq_some.mp hn
    obtain rfl := Option.some.inj heq
    exact ⟨newest, h.same rfl (fun _ hi => hi) (fun _ hj => hj) (fun _ hr => (List.mem_filter.mp hr).1) h.stream⟩

theorem run_all_ordered {t : K} {es : List (VideoStep K Client V)} (hr : Run (next c float) (start c t) es s) :
    s.Watched c ∧ ∃ newest, s.Ordered newest :=
  hr.invariant (fun s => s.Watched c ∧ ∃ newest, s.Ordered newest) ⟨start_watched t, 0, start_ordered t⟩
    fun _ _ _ ⟨hw, _, h⟩ hn => ⟨next_watched hw hn, next_ordered hw h hn⟩

omit [Field K] [LinearOrder K] [FloorRing K] [DecidableEq Client] in
/-- An encoder runs, unless the hub is closed or nobody watches. -/
def Encodes (s : Video K Client) : Prop := s.hub.closed = false → 0 < s.watching → s.runs ≠ []

omit [Field K] [LinearOrder K] [FloorRing K] [DecidableEq Client] in
theorem settle_encodes (hw : s.Watched c) (he : s.Encodes) {i : Nat} {stream stream' : Stream}
    (hi : s.streams[i]? = some stream) (hgo : stream.await.isSome = true) : (s.settle c i stream').Encodes := by
  have hpos : 0 < s.watching := List.countP_pos_iff.mpr ⟨stream, List.mem_of_getElem? hi, hgo⟩
  have hviewers := (settle_watched hw hi hgo stream').viewers
  intro hopen hleft
  unfold settle at *
  dsimp only at *
  by_cases hnone : stream'.await = none
  · rw [if_pos hnone] at hopen hleft hviewers ⊢
    unfold remove_viewer at *
    dsimp only at *
    by_cases hlast : s.hub.viewers - 1 = 0
    · rw [if_pos hlast] at hleft hviewers
      have hzero : s.hub.viewers - 1 = _ := hviewers
      omega
    · rw [if_neg hlast] at hopen ⊢
      exact he hopen hpos
  · rw [if_neg hnone] at hopen ⊢
    exact he hopen hpos

omit [Field K] [LinearOrder K] [FloorRing K] [DecidableEq Client] in
theorem stream_encodes (hw : s.Watched c) (he : s.Encodes) : (s.stream c).Encodes := by
  have hviewers := hw.viewers
  have hhub : (s.add_viewer c).hub.closed = s.hub.closed ∧
      (s.hub.closed = false → (s.add_viewer c).runs ≠ []) := by
    unfold add_viewer
    dsimp only
    split
    · exact ⟨rfl, fun _ => List.append_ne_nil_of_right_ne_nil _ (List.cons_ne_nil _ _)⟩
    · exact ⟨rfl, fun hopen => he hopen (by omega)⟩
  intro hopen hleft
  unfold stream settle Stream.loop at *
  dsimp only at *
  by_cases hclosed : (s.add_viewer c).hub.closed = true
  · -- the hub stays closed
    rw [if_pos hclosed, if_pos rfl] at hopen
    have hstays : ∀ s : Video K Client, (s.remove_viewer c).hub.closed = s.hub.closed := by
      intro s
      unfold remove_viewer
      dsimp only
      split <;> rfl
    rw [hstays] at hopen
    exact absurd (hclosed.symm.trans hopen) (by decide)
  · rw [if_neg hclosed, if_neg (by simp)]
    exact hhub.2 (hhub.1.symm.trans (Bool.eq_false_of_not_eq_true hclosed))

theorem next_encodes {step : VideoStep K Client V} (hw : s.Watched c) (he : s.Encodes)
    (hstep : ∀ i, step ≠ .run i .raised) (hn : next c float s step s') : s'.Encodes := by
  unfold next at hn
  cases step with
  | call e =>
    obtain ⟨-, heq⟩ := Option.ite_none_right_eq_some.mp hn
    obtain rfl := Option.some.inj heq
    rcases call_cases c float e s with ⟨-, hcall⟩ | ⟨topic, -, -, hcall⟩
    · rw [hcall]
      exact he
    · rw [hcall]
      exact he
  | switch mode =>
    obtain rfl := Option.some.inj hn
    exact he
  | stream =>
    obtain rfl := Option.some.inj hn
    exact stream_encodes hw he
  | next_frame i timeout gone =>
    obtain ⟨stream, stream', hi, hproceed, rfl⟩ := settled hn
    exact settle_encodes hw he hi (by rw [Stream.proceed_await hproceed]; rfl)
  | write i ok =>
    obtain ⟨stream, stream', hi, hwrote, rfl⟩ := settled hn
    exact settle_encodes hw he hi (by rw [Stream.wrote_await hwrote]; rfl)
  | leave i =>
    obtain ⟨stream, stream', hi, hleave, rfl⟩ := settled hn
    exact settle_encodes hw he hi (Stream.leave_await hleave).1
  | run i encoding =>
    obtain ⟨run, hi, rfl⟩ := Option.map_eq_some_iff.mp hn
    have hset : ∀ run' : RunTask, s.hub.closed = false → 0 < s.watching → s.runs.set i run' ≠ [] :=
      fun run' hopen hpos hnil => he hopen hpos (by simpa using hnil)
    cases run.await with
    | sleep =>
      dsimp only
      split
      · split
        · exact hset _
        · exact he
      · exact he
    | encode image =>
      cases encoding with
      | jpeg => exact hset _
      | none => exact hset _
      | raised => exact absurd rfl (hstep i)
    | condition image => exact hset _
  | close =>
    obtain rfl := Option.some.inj hn
    intro hopen
    cases hopen
  | close_task =>
    obtain ⟨hclosed, heq⟩ := Option.ite_none_right_eq_some.mp hn
    obtain rfl := Option.some.inj heq
    exact fun hopen => absurd (hclosed.symm.trans hopen) (by decide)

/-- However viewers, images, calls of the bridge and the stretches of the tasks interleave: the
bridge streams while somebody watches; at most one encoder runs, none when nobody watches, and one
while somebody does unless the hub is closed or OpenCV has raised; and what a viewer is sent are images
in the order in which the bridge received them, none of them twice, but for the last one again when
the hub is closed. -/
theorem viewers_share_one_encoder {t : K} {es : List (VideoStep K Client V)}
    (hr : Run (next c float) (start c t) es s) :
    (s.node.bridge.streaming = true ↔ 0 < s.watching) ∧
    s.runs.length ≤ 1 ∧ (s.watching = 0 → s.runs = []) ∧
    ((∀ i, VideoStep.run i .raised ∉ es) → s.hub.closed = false → 0 < s.watching → s.runs.length = 1) ∧
    ∀ stream ∈ s.streams,
      stream.written.Pairwise (·.seq ≤ ·.seq) ∧ stream.written.dropLast.Pairwise (·.seq < ·.seq) ∧
      (s.hub.closed = false → stream.written.Pairwise (·.seq < ·.seq)) := by
  obtain ⟨hw, newest, ho⟩ := run_all_ordered hr
  refine ⟨hw.streaming, hw.one, hw.idle, fun hnone hopen hpos => ?_, fun stream hstream => ?_⟩
  · have hencodes : s.Watched c ∧ s.Encodes := by
      apply (hr.and_of_mem (P := fun _ step _ => ∀ i, step ≠ .run i .raised) _).invariant
        (fun s => s.Watched c ∧ s.Encodes)
      · exact ⟨start_watched t, fun _ hpos => absurd hpos (lt_irrefl 0)⟩
      · exact fun _ _ _ ⟨hw, he⟩ hn => ⟨next_watched hw hn.1, next_encodes hw he hn.2 hn.1⟩
      · intro step hstep _ _ i heq
        exact hnone i (heq ▸ hstep)
    have hruns := List.length_pos_iff.mpr (hencodes.2 hopen hpos)
    exact Nat.le_antisymm hw.one hruns
  · have hsorted := ho.stream stream hstream
    exact ⟨hsorted.sorted, hsorted.but_last, fun hopen => hsorted.strict (.inl hopen)⟩

end Steps

end Video

abbrev VideoCall := VideoStep Rat String (Dbl Rat)

/-- Somebody comes to watch, and is sent the first image. -/
def first_image : List VideoCall :=
  [.stream, .call ⟨1 / 10, .update_image_subscription⟩, .call ⟨1 / 5, .on_image⟩, .run 0 .jpeg, .run 0 .jpeg,
    .run 0 .jpeg, .next_frame 0 false false]

/-- The server after `steps`, from a state and from its start. -/
abbrev shown_from (s : Video Rat String) (steps : List VideoCall) : Option (Video Rat String) :=
  steps.foldlM (fun s step => s.taken web_controller_yaml float_of step) s

abbrev shown (steps : List VideoCall) : Option (Video Rat String) :=
  shown_from (Video.start web_controller_yaml 0) steps

/-- ... and the second one. -/
def second_image : List VideoCall :=
  first_image ++ [.write 0 true, .call ⟨3 / 10, .on_image⟩, .run 0 .jpeg, .run 0 .jpeg, .run 0 .jpeg,
    .next_frame 0 false false]

/-- The hub is closed after that. -/
def closed_hub : List VideoCall := second_image ++ [.write 0 true, .close, .next_frame 0 false false]

abbrev camera_image (seq : Nat) : CameraImage := ⟨seq, "/camera/image_raw"⟩

theorem second_image_shown : ((shown second_image).map fun s =>
    (s.hub.closed, s.watching, s.streams.map Stream.written)) =
      some (false, 1, [[camera_image 1, camera_image 2]]) := by
  decide +kernel

theorem closed_hub_shown : ((shown closed_hub).map fun s => s.streams.map Stream.written) =
    some [[camera_image 1, camera_image 2, camera_image 2]] := by
  decide +kernel

/-- The encoder goes on, and the viewer is sent two images; the second one again when the hub is
closed. -/
theorem viewers_share_one_encoder_twice :
    (∃ s, shown second_image = some s ∧ s.runs.length = 1 ∧
      s.streams.map Stream.written = [[camera_image 1, camera_image 2]] ∧
      ∀ stream ∈ s.streams, stream.written.Pairwise (·.seq < ·.seq)) ∧
    ∃ s, shown closed_hub = some s ∧
      s.streams.map Stream.written = [[camera_image 1, camera_image 2, camera_image 2]] ∧
      ∀ stream ∈ s.streams, stream.written.Pairwise (·.seq ≤ ·.seq) ∧
        stream.written.dropLast.Pairwise (·.seq < ·.seq) := by
  constructor
  · have hshown := second_image_shown
    obtain ⟨s, hs⟩ : ∃ s, shown second_image = some s := Option.isSome_iff_exists.mp (by decide +kernel)
    rw [hs] at hshown
    obtain ⟨hopen, hwatching, hwritten⟩ : s.hub.closed = false ∧ s.watching = 1 ∧
        s.streams.map Stream.written = [[camera_image 1, camera_image 2]] := by
      simpa using hshown
    obtain ⟨-, -, -, hruns, hordered⟩ := Video.viewers_share_one_encoder (Run.of_foldlM hs)
    refine ⟨s, hs, ?_, hwritten, fun stream hstream => (hordered stream hstream).2.2 hopen⟩
    apply hruns _ hopen (by omega)
    intro i hraised
    simp [second_image, first_image] at hraised
  · have hshown := closed_hub_shown
    obtain ⟨s, hs⟩ : ∃ s, shown closed_hub = some s := Option.isSome_iff_exists.mp (by decide +kernel)
    rw [hs] at hshown
    obtain ⟨-, -, -, -, hordered⟩ := Video.viewers_share_one_encoder (Run.of_foldlM hs)
    exact ⟨s, hs, Option.some.inj hshown, fun stream hstream =>
      ⟨(hordered stream hstream).1, (hordered stream hstream).2.1⟩⟩

end IotRobot.Web
