import IotRobot.Imu.Lsm9ds1
import IotRobot.Lib.Runs
import Mathlib.Tactic.Linarith
import Mathlib.Data.Fin.VecNotation
import Mathlib.Data.List.Induction

/-!
# The gyroscope bias

The window of the estimator is the latest part of the samples that the node handled. It
outlives the connection, so that it is of one connection only if no connection is lost while it
is filling.
-/

namespace IotRobot.Imu

open Lib

set_option autoImplicit false

variable {K : Type} [Field K] [LinearOrder K] (c : Parameters K)

namespace GyroBiasEstimator
variable (e : GyroBiasEstimator K) (rate : Axes K)

/-- Every sample is within `tolerance` of the bias on every axis. -/
def Still (tolerance : K) (window : List (Axes K)) (bias : Axes K) : Prop :=
  ∀ sample ∈ window, ∀ axis, |sample axis - bias axis| ≤ tolerance

theorem moved_eq_false_iff (tolerance : K) (window : List (Axes K)) :
    moved tolerance window = false ↔ Still tolerance window (mean window) := by
  unfold moved Still
  rw [List.any_eq_false]
  constructor
  · intro h sample hsample axis
    by_contra hfar
    apply h sample hsample
    rw [List.any_eq_true]
    exact ⟨axis, List.mem_finRange axis, decide_eq_true (not_le.mp hfar)⟩
  · intro h sample hsample hany
    obtain ⟨axis, -, hfar⟩ := List.any_eq_true.mp hany
    exact not_le.mpr (of_decide_eq_true hfar) (h sample hsample axis)

/-- A sample fills the window further, or the full window is dropped, or it gives the bias. -/
theorem add_cases :
    (e.window.length + 1 < e.samples ∧ ∃ e', e.add rate = (none, e') ∧ e'.window = e.window ++ [rate] ∧
      e'.samples = e.samples ∧ e'.tolerance = e.tolerance) ∨
    (e.window.length + 1 = e.samples ∧ ∃ e', e'.window = [] ∧ e'.samples = e.samples ∧
      e'.tolerance = e.tolerance ∧
      (e.add rate = (none, e') ∨
        e.add rate = (some (mean (e.window ++ [rate])), e') ∧
          Still e.tolerance (e.window ++ [rate]) (mean (e.window ++ [rate])))) := by
  have hroom := e.room
  have hlength : (e.window ++ [rate]).length = e.window.length + 1 := List.length_append
  unfold add
  dsimp only
  by_cases hmore : (e.window ++ [rate]).length < e.samples
  · rw [dif_pos hmore]
    exact .inl ⟨hlength ▸ hmore, _, rfl, rfl, rfl, rfl⟩
  rw [dif_neg hmore]
  refine .inr ⟨by omega, ?_⟩
  cases hmoved : moved e.tolerance (e.window ++ [rate]) with
  | true => exact ⟨e.emptied (e.rejected + 1), rfl, rfl, rfl, .inl (if_pos rfl)⟩
  | false =>
    refine ⟨e.emptied e.rejected, rfl, rfl, rfl, .inr ⟨if_neg Bool.false_ne_true, ?_⟩⟩
    exact (moved_eq_false_iff _ _).mp hmoved

end GyroBiasEstimator

def Message.imu_data : Message K → Option (Axes K × Axes K)
  | .imu accel gyro => some (accel, gyro)
  | .mag _ => none

/-- The messages on `imu/data_raw`. -/
def imu_messages (sent : List (Message K)) : List (Axes K × Axes K) := sent.filterMap Message.imu_data

omit [Field K] [LinearOrder K] in
theorem imu_messages_imu (sent : List (Message K)) (accel gyro : Axes K) :
    imu_messages (sent ++ [.imu accel gyro]) = imu_messages sent ++ [(accel, gyro)] := by
  unfold imu_messages
  rw [List.filterMap_append]
  rfl

omit [Field K] [LinearOrder K] in
theorem imu_messages_mag (sent : List (Message K)) (field : Axes K) :
    imu_messages (sent ++ [.mag field]) = imu_messages sent := by
  unfold imu_messages
  rw [List.filterMap_append]
  exact List.append_nil _

/-- What the node publishes for a sample once it has a bias. -/
def unbiased (bias : Axes K) (sample : Sample K) : Axes K × Axes K :=
  (sample.accel, fun axis => sample.gyro axis - bias axis)

def OneConnection (window : List (Sample K)) : Prop :=
  ∀ first ∈ window, ∀ second ∈ window, first.connection = second.connection

/-- The samples fall into those before the window, the window that the bias is the mean of, and
those after it. The messages are the ones since the sample that completed the window. -/
structure MeasuredFrom (before window after : List (Sample K)) (bias : Axes K)
    (s : Lsm9ds1Node K) : Prop where
  samples : s.samples = before ++ (window ++ after)
  length : window.length = c.gyro_bias_samples.toNat
  mean : bias = GyroBiasEstimator.mean (window.map Sample.gyro)
  still : GyroBiasEstimator.Still c.gyro_bias_tolerance (window.map Sample.gyro) bias
  messages : imu_messages s.sent = (window.getLast?.toList ++ after).map (unbiased bias)

/-- No message is published without a bias, and the bias is the mean of a still window of
samples that came over one connection. -/
structure BiasMeasured (s : Lsm9ds1Node K) : Prop where
  unpublished : s.bias = none → imu_messages s.sent = []
  measured : ∀ bias, s.bias = some bias → ∃ before window after,
    MeasuredFrom c before window after bias s ∧ OneConnection window

namespace Lsm9ds1Node

def sample_of (p : Poll K) : Option (Axes K × Axes K) :=
  match p.reading with
  | .ok (sample, _) => sample
  | .error _ => none

/-- The connection is lost in a poll: an I/O error, or one of the sensors is stale. -/
def Lost (p : Poll K) (s : Lsm9ds1Node K) : Prop :=
  match p.reading with
  | .error _ => True
  | .ok (sample, field) =>
    c.stale_timeout < p.now - min (if sample.isSome then p.now else s.last_ag)
      (if field.isSome then p.now else s.last_mag)

instance (p : Poll K) (s : Lsm9ds1Node K) : Decidable (Lost c p s) :=
  match h : p.reading with
  | .error _ => .isTrue (by unfold Lost; rw [h]; trivial)
  | .ok (sample, field) =>
    decidable_of_iff (c.stale_timeout < p.now - min (if sample.isSome then p.now else s.last_ag)
      (if field.isSome then p.now else s.last_mag)) (by unfold Lost; rw [h])

/-- With the sample of the poll, the window holds some of its samples but not all of them. -/
def Filling (p : Poll K) (s : Lsm9ds1Node K) : Prop :=
  s.bias = none ∧ ∃ e, s.bias_estimator = some e ∧
    0 < e.window.length + (sample_of p).toList.length ∧
    e.window.length + (sample_of p).toList.length < e.samples

/-- Without a bias the estimator's window is the latest part of the samples. With one, the
samples and the messages are as they should be. The window is of one connection if the run is
`steady`. -/
structure Tracked (steady : Prop) (s : Lsm9ds1Node K) : Prop where
  filling : s.bias = none → imu_messages s.sent = [] ∧ ∃ e, s.bias_estimator = some e ∧
    e.samples = c.gyro_bias_samples.toNat ∧ e.tolerance = c.gyro_bias_tolerance ∧
    ∃ before window, s.samples = before ++ window ∧ window.map Sample.gyro = e.window ∧
      (steady → ∀ sample ∈ window, sample.connection = s.connection)
  measured : ∀ bias, s.bias = some bias → ∃ before window after,
    MeasuredFrom c before window after bias s ∧ (steady → OneConnection window)

/-- The estimator has a partly filled window. -/
def Partial (s : Lsm9ds1Node K) : Prop :=
  s.bias = none ∧ ∃ e, s.bias_estimator = some e ∧ e.window ≠ []

variable {c} {steady : Prop} {s s' : Lsm9ds1Node K} {p : Poll K}

omit [LinearOrder K] in
theorem init_estimates (h : 0 < c.gyro_bias_samples) : ∃ hsize : 1 ≤ c.gyro_bias_samples.toNat, init c =
    { bias := none
      bias_estimator := some (.init c.gyro_bias_samples.toNat c.gyro_bias_tolerance hsize)
      next_attempt := 0.0
      last_ag := 0.0
      last_mag := 0.0 } := by
  refine ⟨by omega, ?_⟩
  unfold init
  rw [dif_pos h]

omit [LinearOrder K] in
theorem init_unbiased (h : ¬ 0 < c.gyro_bias_samples) : init c =
    { bias := some fun _ => 0.0
      bias_estimator := none
      next_attempt := 0.0
      last_ag := 0.0
      last_mag := 0.0 } := by
  unfold init
  rw [dif_neg h]

omit [LinearOrder K] in
theorem init_not_partial : ¬ Partial (init c) := by
  by_cases h : 0 < c.gyro_bias_samples
  · obtain ⟨hsize, hinit⟩ := init_estimates h
    rw [hinit]
    rintro ⟨-, e, he, hwindow⟩
    obtain rfl := Option.some.inj he
    exact hwindow rfl
  · rw [init_unbiased h]
    rintro ⟨hnone, -⟩
    cases hnone

theorem tracked_init [IsStrictOrderedRing K] : Tracked c steady (init c) := by
  by_cases h : 0 < c.gyro_bias_samples
  · obtain ⟨hsize, hinit⟩ := init_estimates h
    rw [hinit]
    refine ⟨fun _ => ⟨rfl, _, rfl, rfl, rfl, [], [], rfl, rfl, ?_⟩, ?_⟩
    · exact fun _ _ hmem => absurd hmem List.not_mem_nil
    · intro bias hbias
      cases hbias
  · rw [init_unbiased h]
    constructor
    · intro hnone
      cases hnone
    · intro bias hbias
      obtain rfl := Option.some.inj hbias
      refine ⟨[], [], [], ⟨rfl, ?_, ?_, ?_, rfl⟩, fun _ => ?_⟩
      · rw [Int.toNat_of_nonpos (by omega)]
        rfl
      · funext axis
        show (0.0 : K) = 0 / (0 : Nat)
        rw [zero_div]
        norm_num
      · exact fun _ hmem => absurd hmem List.not_mem_nil
      · exact fun _ hmem => absurd hmem List.not_mem_nil

/-- The clocks and the connection's state are not looked at. -/
theorem Tracked.congr (h : Tracked c steady s) (hbias : s'.bias = s.bias)
    (hestimator : s'.bias_estimator = s.bias_estimator) (hsamples : s'.samples = s.samples)
    (hmessages : imu_messages s'.sent = imu_messages s.sent)
    (hconnection : s'.connection = s.connection ∨ (steady → ¬ Partial s)) : Tracked c steady s' := by
  constructor
  · intro hnone
    rw [hbias] at hnone
    obtain ⟨hsent, e, he, hcount, htolerance, before, window, hsplit, hwindow, hone⟩ := h.filling hnone
    refine ⟨hmessages.trans hsent, e, hestimator.trans he, hcount, htolerance, before, window,
      hsamples.trans hsplit, hwindow, ?_⟩
    intro hsteady
    rcases hconnection with hsame | hempty
    · rw [hsame]
      exact hone hsteady
    · have hnil : window = [] := by
        by_contra hne
        apply hempty hsteady
        refine ⟨hnone, e, he, ?_⟩
        rw [← hwindow]
        exact fun hmap => hne (List.map_eq_nil_iff.mp hmap)
      rw [hnil]
      exact fun _ hmem => absurd hmem List.not_mem_nil
  · intro bias hsome
    rw [hbias] at hsome
    obtain ⟨before, window, after, hmeasured, hone⟩ := h.measured bias hsome
    exact ⟨before, window, after, ⟨hsamples.trans hmeasured.samples, hmeasured.length,
      hmeasured.mean, hmeasured.still, hmessages.trans hmeasured.messages⟩, hone⟩

section Handling
variable {accel gyro bias : Axes K} {e e' : GyroBiasEstimator K}

theorem handle_sample_biased (hbias : s.bias = some bias) : s.handle_sample accel gyro =
    { s with samples := s.samples ++ [s.arrived accel gyro] }.publish_imu accel gyro bias := by
  unfold handle_sample
  dsimp only
  rw [hbias]

theorem handle_sample_unbiased (hbias : s.bias = none) (he : s.bias_estimator = some e)
    (hadd : e.add gyro = (none, e')) : s.handle_sample accel gyro =
      { s with
        samples := s.samples ++ [s.arrived accel gyro]
        bias_estimator := some e' } := by
  unfold handle_sample
  dsimp only
  rw [hbias, he]
  dsimp only
  rw [hadd]

theorem handle_sample_measures (hbias : s.bias = none) (he : s.bias_estimator = some e)
    (hadd : e.add gyro = (some bias, e')) : s.handle_sample accel gyro =
      { s with
        samples := s.samples ++ [s.arrived accel gyro]
        bias := some bias
        bias_estimator := some e' }.publish_imu accel gyro bias := by
  unfold handle_sample
  dsimp only
  rw [hbias, he]
  dsimp only
  rw [hadd]

end Handling

/-- A sample loses the bias, or joins the window, or completes it. -/
theorem Tracked.handle_sample (h : Tracked c steady s) (accel gyro : Axes K) :
    Tracked c steady (s.handle_sample accel gyro) := by
  cases hbias : s.bias with
  | some bias =>
    rw [handle_sample_biased hbias]
    constructor
    · intro hnone
      cases hbias.symm.trans hnone
    intro bias' hbias'
    obtain rfl := Option.some.inj (hbias.symm.trans hbias')
    obtain ⟨before, window, after, hmeasured, hone⟩ := h.measured bias hbias
    refine ⟨before, window, after ++ [s.arrived accel gyro], ⟨?_, hmeasured.length,
      hmeasured.mean, hmeasured.still, ?_⟩, hone⟩
    · show s.samples ++ _ = _
      rw [hmeasured.samples, List.append_assoc, List.append_assoc]
    · show imu_messages (s.sent ++ [_]) = _
      rw [imu_messages_imu, hmeasured.messages, ← List.append_assoc]
      simp only [List.map_append]
      rfl
  | none =>
    obtain ⟨hsent, e, he, hcount, htolerance, before, window, hsplit, hwindow, hone⟩ := h.filling hbias
    -- the window with the sample, whatever becomes of it
    have hgyros : (window ++ [s.arrived accel gyro]).map Sample.gyro = e.window ++ [gyro] := by
      rw [List.map_append, hwindow]
      rfl
    have hsamples : s.samples ++ [s.arrived accel gyro] =
        before ++ (window ++ [s.arrived accel gyro]) := by
      rw [hsplit, List.append_assoc]
    have hsame (hsteady : steady) :
        ∀ sample ∈ window ++ [s.arrived accel gyro], sample.connection = s.connection := by
      intro sample hsample
      rcases List.mem_append.mp hsample with hold | hnew
      · exact hone hsteady sample hold
      · rw [List.mem_singleton.mp hnew]
        rfl
    rcases e.add_cases gyro with
      ⟨-, e', hadd, hwindow', hcount', htolerance'⟩ |
        ⟨hfull, e', hwindow', hcount', htolerance', hadd | ⟨hadd, hstill⟩⟩
    · rw [handle_sample_unbiased hbias he hadd]
      refine ⟨fun _ => ⟨hsent, e', rfl, hcount'.trans hcount, htolerance'.trans htolerance, before, _,
        hsamples, hgyros.trans hwindow'.symm, hsame⟩, ?_⟩
      intro bias hsome
      cases hbias.symm.trans hsome
    · rw [handle_sample_unbiased hbias he hadd]
      refine ⟨fun _ => ⟨hsent, e', rfl, hcount'.trans hcount, htolerance'.trans htolerance, _, [],
        (List.append_nil _).symm, hwindow'.symm, fun _ _ hmem => absurd hmem List.not_mem_nil⟩, ?_⟩
      intro bias hsome
      cases hbias.symm.trans hsome
    · rw [handle_sample_measures hbias he hadd]
      constructor
      · intro hnone
        cases hnone
      intro bias hsome
      obtain rfl := Option.some.inj hsome
      refine ⟨before, window ++ [s.arrived accel gyro], [], ⟨?_, ?_, ?_, ?_, ?_⟩, ?_⟩
      · rw [List.append_nil]
        exact hsamples
      · rw [← List.length_map (f := Sample.gyro), hgyros, List.length_append, List.length_singleton,
          hfull, hcount]
      · rw [hgyros]
      · rw [hgyros, ← htolerance]
        exact hstill
      · show imu_messages (s.sent ++ [_]) = _
        rw [imu_messages_imu, hsent, List.getLast?_append]
        rfl
      · intro hsteady first hfirst second hsecond
        rw [hsame hsteady first hfirst, hsame hsteady second hsecond]

/-- After a sample the window is empty, unless the sample left it partly filled. -/
theorem handle_sample_partial {accel gyro : Axes K} (h : Partial (s.handle_sample accel gyro)) :
    s.bias = none ∧ ∃ e, s.bias_estimator = some e ∧ e.window.length + 1 < e.samples := by
  obtain ⟨hnone, e', he', hwindow'⟩ := h
  cases hbias : s.bias with
  | some bias =>
    rw [handle_sample_biased hbias] at hnone
    cases hbias.symm.trans hnone
  | none =>
    cases he : s.bias_estimator with
    | none =>
      have hkept : (s.handle_sample accel gyro).bias_estimator = none := by
        unfold handle_sample
        dsimp only
        rw [hbias, he]
      cases hkept.symm.trans he'
    | some e =>
      refine ⟨rfl, e, rfl, ?_⟩
      rcases e.add_cases gyro with
        ⟨hroom, -⟩ | ⟨-, d, hempty, -, -, hadd | ⟨hadd, -⟩⟩
      · exact hroom
      · rw [handle_sample_unbiased hbias he hadd] at he'
        obtain rfl := Option.some.inj he'
        exact absurd hempty hwindow'
      · rw [handle_sample_measures hbias he hadd] at hnone
        cases hnone

/-- Without its connection the node has no partly filled window if the run is `steady`. -/
structure Kept (c : Parameters K) (steady : Prop) (s : Lsm9ds1Node K) : Prop where
  tracked : Tracked c steady s
  idle : steady → s.sensor = false → ¬ Partial s

theorem Kept.fail (h : Tracked c steady s) (hempty : steady → ¬ Partial s) (now : K) : Kept c steady (s.fail c now) where
  tracked := h.congr rfl rfl rfl rfl (.inl rfl)
  idle := fun hsteady _ => hempty hsteady

theorem Kept.connect (h : Kept c steady s) (hsensor : s.sensor = false) (p : Poll K) :
    Kept c steady (s.connect c p) := by
  unfold Lsm9ds1Node.connect
  split
  · exact Kept.fail h.tracked (fun hsteady => h.idle hsteady hsensor) p.failed
  · refine ⟨h.tracked.congr rfl rfl rfl rfl (.inr fun hsteady => h.idle hsteady hsensor), ?_⟩
    intro _ hclosed
    cases hclosed

theorem Tracked.take_sample (h : Tracked c steady s) (p : Poll K) (sample : Option (Axes K × Axes K)) :
    Tracked c steady (s.take_sample p sample) := by
  unfold Lsm9ds1Node.take_sample
  split
  · exact h
  · have hstamped : Tracked c steady { s with last_ag := p.now } := h.congr rfl rfl rfl rfl (.inl rfl)
    exact hstamped.handle_sample _ _

theorem Tracked.take_field (h : Tracked c steady s) (p : Poll K) (field : Option (Axes K)) :
    Tracked c steady (s.take_field p field) := by
  unfold Lsm9ds1Node.take_field
  split
  · exact h
  · exact h.congr rfl rfl rfl (imu_messages_mag _ _) (.inl rfl)

/-- Handling a sample touches neither the connection nor the clocks. -/
theorem handle_sample_kept (accel gyro : Axes K) (s : Lsm9ds1Node K) :
    (s.handle_sample accel gyro).sensor = s.sensor ∧
    (s.handle_sample accel gyro).last_ag = s.last_ag ∧
    (s.handle_sample accel gyro).last_mag = s.last_mag := by
  unfold handle_sample
  dsimp only
  split
  · exact ⟨rfl, rfl, rfl⟩
  · exact ⟨rfl, rfl, rfl⟩
  · split
    · exact ⟨rfl, rfl, rfl⟩
    · exact ⟨rfl, rfl, rfl⟩

theorem take_sample_kept (p : Poll K) (sample : Option (Axes K × Axes K)) (s : Lsm9ds1Node K) :
    (s.take_sample p sample).sensor = s.sensor ∧
    (s.take_sample p sample).last_ag = (if sample.isSome then p.now else s.last_ag) ∧
    (s.take_sample p sample).last_mag = s.last_mag := by
  cases sample with
  | none => exact ⟨rfl, rfl, rfl⟩
  | some sample => exact handle_sample_kept sample.1 sample.2 { s with last_ag := p.now }

omit [Field K] [LinearOrder K] in
theorem take_field_kept (p : Poll K) (field : Option (Axes K)) (s : Lsm9ds1Node K) :
    (s.take_field p field).sensor = s.sensor ∧ (s.take_field p field).last_ag = s.last_ag ∧
    (s.take_field p field).last_mag = (if field.isSome then p.now else s.last_mag) ∧
    (Partial (s.take_field p field) → Partial s) := by
  cases field with
  | none => exact ⟨rfl, rfl, rfl, id⟩
  | some field => exact ⟨rfl, rfl, rfl, id⟩

/-- A window that the samples of a poll leave partly filled was filling. -/
theorem take_sample_partial {sample : Option (Axes K × Axes K)} {field : Option (Axes K)}
    (hreading : p.reading = .ok (sample, field)) (h : Partial (s.take_sample p sample)) :
    Filling p s := by
  unfold Filling sample_of
  rw [hreading]
  cases sample with
  | none =>
    obtain ⟨hnone, e, he, hwindow⟩ := h
    exact ⟨hnone, e, he, List.length_pos_iff.mpr hwindow, e.room⟩
  | some sample =>
    obtain ⟨hnone, e, he, hroom⟩ := handle_sample_partial (s := { s with last_ag := p.now }) h
    exact ⟨hnone, e, he, Nat.succ_pos _, hroom⟩

theorem Kept.poll (h : Kept c steady s)
    (hp : steady → s.sensor = true → Lost c p s → ¬ Filling p s) :
    Kept c steady (s.poll c p) := by
  unfold Lsm9ds1Node.poll
  cases hsensor : s.sensor with
  | false =>
    rw [if_pos rfl]
    split
    · exact h.connect hsensor p
    · exact h
  | true =>
    rw [if_neg fun hclosed => by cases hclosed]
    cases hreading : p.reading with
    | error e =>
      apply Kept.fail h.tracked
      rintro hsteady ⟨hnone, e, he, hwindow⟩
      apply hp hsteady hsensor
      · unfold Lost
        rw [hreading]
        trivial
      · refine ⟨hnone, e, he, ?_⟩
        unfold sample_of
        rw [hreading]
        exact ⟨List.length_pos_iff.mpr hwindow, e.room⟩
    | ok reading =>
      obtain ⟨sample, field⟩ := reading
      dsimp only
      have htracked := (h.tracked.take_sample p sample).take_field p field
      obtain ⟨hsensor₁, hag₁, hmag₁⟩ := take_sample_kept p sample s
      obtain ⟨hsensor₂, hag₂, hmag₂, hfilled⟩ := take_field_kept p field (s.take_sample p sample)
      rw [hag₂, hag₁, hmag₂, hmag₁]
      by_cases hstale : c.stale_timeout < p.now - min (if sample.isSome then p.now else s.last_ag)
          (if field.isSome then p.now else s.last_mag)
      · rw [if_pos hstale]
        apply Kept.fail htracked
        intro hsteady hleft
        apply hp hsteady hsensor
        · unfold Lost
          rw [hreading]
          exact hstale
        · exact take_sample_partial hreading (hfilled hleft)
      · rw [if_neg hstale]
        refine ⟨htracked, ?_⟩
        intro _ hclosed
        rw [hsensor₂, hsensor₁, hsensor] at hclosed
        cases hclosed

/-- A bias that is set stays. -/
theorem poll_bias {bias : Axes K} (h : s.bias = some bias) (p : Poll K) :
    (s.poll c p).bias = some bias := by
  have hsample (sample : Option (Axes K × Axes K)) : (s.take_sample p sample).bias = some bias := by
    cases sample with
    | none => exact h
    | some sample =>
      have hstamped : ({ s with last_ag := p.now } : Lsm9ds1Node K).bias = some bias := h
      exact (congrArg Lsm9ds1Node.bias (handle_sample_biased hstamped)).trans h
  have hfield (sample : Option (Axes K × Axes K)) (field : Option (Axes K)) :
      ((s.take_sample p sample).take_field p field).bias = some bias := by
    cases field with
    | none => exact hsample sample
    | some field => exact hsample sample
  unfold Lsm9ds1Node.poll
  split
  · split
    · unfold connect
      split
      · exact h
      · exact h
    · exact h
  · split
    · exact h
    · dsimp only
      split
      · exact hfield _ _
      · exact hfield _ _

/-- A poll of the timer. -/
def next (c : Parameters K) (s : Lsm9ds1Node K) (p : Poll K) (s' : Lsm9ds1Node K) : Prop :=
  s' = s.poll c p

/-- A poll that loses no connection while the window is filling. -/
def uninterrupted (c : Parameters K) (s : Lsm9ds1Node K) (p : Poll K) (s' : Lsm9ds1Node K) : Prop :=
  next c s p s' ∧ (s.sensor = true → Lost c p s → ¬ Filling p s)

theorem run_bias {polls : List (Poll K)} (h : Run (next c) s polls s') {bias : Axes K}
    (hbias : s.bias = some bias) : s'.bias = some bias := by
  refine h.invariant (fun s => s.bias = some bias) hbias ?_
  rintro a b p ha rfl
  exact poll_bias ha p

theorem Kept.biasMeasured (h : Kept c True s) : BiasMeasured c s where
  unpublished hnone := (h.tracked.filling hnone).1
  measured bias hbias := by
    obtain ⟨before, window, after, hmeasured, hone⟩ := h.tracked.measured bias hbias
    exact ⟨before, window, after, hmeasured, hone trivial⟩

variable [IsStrictOrderedRing K]

/-- In any run the bias is the mean of as many successive samples as it takes. -/
theorem bias_is_mean {polls : List (Poll K)} (h : Run (next c) (init c) polls s) {bias : Axes K}
    (hbias : s.bias = some bias) :
    ∃ before window after, MeasuredFrom c before window after bias s := by
  have hkept : Kept c False s := by
    refine h.invariant (Kept c False) ⟨tracked_init, False.elim⟩ ?_
    rintro a b p ha rfl
    exact ha.poll False.elim
  obtain ⟨before, window, after, hmeasured, -⟩ := hkept.tracked.measured bias hbias
  exact ⟨before, window, after, hmeasured⟩

section Bench

/-- `imu.yaml` with a window of two samples. -/
def two_samples : Parameters Rat where
  gyro_bias_samples := 2
  gyro_bias_tolerance := 0.05
  reconnect_period := 1.0
  stale_timeout := 0.5

def poll_at (now : Rat) (reading : Except BusError (Option (Axes Rat × Axes Rat) × Option (Axes Rat))) :
    Poll Rat where
  attempt := now
  opened := now
  now := now
  failed := now
  opening := .ok ()
  reading := reading

/-- Both devices have something new. -/
def bench_sample (now rate : Rat) : Poll Rat :=
  poll_at now (.ok (some (![0, 0, 9.8], ![rate, 0, 0]), some ![0, 0, 0]))

def unplugged (now : Rat) : Poll Rat := poll_at now (.error .OSError)

def at_rest : List (Poll Rat) := [bench_sample 0 0, bench_sample 0.01 0.01, bench_sample 0.02 0.03]

def interrupted : List (Poll Rat) :=
  [bench_sample 0 0, bench_sample 0.01 0.01, unplugged 0.02, bench_sample 1.02 0, bench_sample 1.03 0.03]

def bench (polls : List (Poll Rat)) : Lsm9ds1Node Rat :=
  polls.foldl (fun s p => s.poll two_samples p) (init two_samples)

theorem run_bench (polls : List (Poll Rat)) : Run (next two_samples) (init two_samples) polls (bench polls) := by
  induction polls using List.reverseRecOn with
  | nil => exact .nil
  | append_singleton polls p ih =>
    unfold bench
    rw [List.foldl_append]
    exact ih.snoc rfl

end Bench

/-- In a run that loses no connection while the window is filling, the samples of the bias came
over one. -/
theorem bias_from_one_window {polls more : List (Poll K)}
    (h : Run (uninterrupted c) (init c) polls s) (h' : Run (next c) s more s') :
    BiasMeasured c s ∧ ∀ bias, s.bias = some bias → s'.bias = some bias := by
  have hkept : Kept c True s := by
    refine h.invariant (Kept c True) ⟨tracked_init, fun _ _ => init_not_partial⟩ ?_
    rintro a b p ha ⟨rfl, hp⟩
    exact ha.poll fun _ => hp
  exact ⟨hkept.biasMeasured, fun bias hbias => run_bias h' hbias⟩

/-- The sensor is opened and read twice. -/
theorem bench_bias_measured :
    BiasMeasured two_samples (bench at_rest) ∧
    ∀ bias, (bench at_rest).bias = some bias → (bench at_rest).bias = some bias := by
  have hopened : uninterrupted two_samples (init two_samples) (bench_sample 0 0)
      (bench [bench_sample 0 0]) := ⟨rfl, fun hopen => absurd hopen (by decide +kernel)⟩
  have hfirst : uninterrupted two_samples (bench [bench_sample 0 0]) (bench_sample 0.01 0.01)
      (bench [bench_sample 0 0, bench_sample 0.01 0.01]) :=
    ⟨rfl, fun _ hlost => absurd hlost (by decide +kernel)⟩
  have hsecond : uninterrupted two_samples (bench [bench_sample 0 0, bench_sample 0.01 0.01])
      (bench_sample 0.02 0.03) (bench at_rest) :=
    ⟨rfl, fun _ hlost => absurd hlost (by decide +kernel)⟩
  exact bias_from_one_window (((Run.nil.snoc hopened).snoc hfirst).snoc hsecond) .nil

/-- The bias is the mean of a sample from before an I/O error and one from after it. -/
theorem two_connections_averaged :
    Run (next two_samples) (init two_samples) interrupted (bench interrupted) ∧
    ¬ BiasMeasured two_samples (bench interrupted) := by
  refine ⟨run_bench interrupted, fun h => ?_⟩
  have hbias : (bench interrupted).bias.isSome = true := by decide +kernel
  have hconnections : (bench interrupted).samples.map Sample.connection = [1, 2] := by decide +kernel
  obtain ⟨bias, hbias⟩ := Option.isSome_iff_exists.mp hbias
  obtain ⟨before, window, after, hmeasured, hone⟩ := h.measured bias hbias
  -- the window is all there is
  have hlength : window.length = 2 := hmeasured.length
  have htotal := congrArg List.length hmeasured.samples
  have htwo := congrArg List.length hconnections
  rw [List.length_map] at htwo
  rw [htwo, List.length_append, List.length_append, hlength] at htotal
  obtain rfl : before = [] := List.length_eq_zero_iff.mp (by simp only [List.length_cons, List.length_nil] at htotal; omega)
  obtain rfl : after = [] := List.length_eq_zero_iff.mp (by simp only [List.length_cons, List.length_nil] at htotal; omega)
  rw [hmeasured.samples, List.nil_append, List.append_nil] at hconnections
  obtain ⟨first, rest, rfl, hfirst, hrest⟩ := List.map_eq_cons_iff.mp hconnections
  obtain ⟨second, last, rfl, hsecond, -⟩ := List.map_eq_cons_iff.mp hrest
  have hsame := hone first List.mem_cons_self second (List.mem_cons_of_mem _ List.mem_cons_self)
  rw [hfirst, hsecond] at hsame
  cases hsame

end Lsm9ds1Node

end IotRobot.Imu
