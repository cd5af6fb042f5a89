import IotRobot.Safe.Callbacks

/-!
# What a joint knows of the status frames heard so far

The batches drained so far are a history; the joint keeps a few fields of it. They
agree on the last batch with a frame of the joint: when it was drained, and whether a
fault stands anywhere in it.
-/

namespace IotRobot.Safe

open Lib Can

set_option autoImplicit false

section Status
variable {K : Type}

/-- The members that status frames set. -/
structure SameStatus (j j' : Joint K) : Prop where
  has_status : j'.has_status = j.has_status
  last_status : j'.last_status = j.last_status
  raw_position : j'.raw_position = j.raw_position
  raw_current : j'.raw_current = j.raw_current
  temperature : j'.temperature = j.temperature
  fault : j'.fault = j.fault

theorem SameStatus.refl (j : Joint K) : SameStatus j j := ⟨rfl, rfl, rfl, rfl, rfl, rfl⟩

theorem SameStatus.trans {j k l : Joint K} (h : SameStatus j k) (g : SameStatus k l) :
    SameStatus j l :=
  ⟨g.has_status.trans h.has_status, g.last_status.trans h.last_status,
    g.raw_position.trans h.raw_position, g.raw_current.trans h.raw_current,
    g.temperature.trans h.temperature, g.fault.trans h.fault⟩

/-- The frames of one batch that are the joint's. -/
def frames_of (p : JointParams K) (h : Heard) : List RxFrame :=
  h.frames.filter fun frame => frame.of p

/-- The last batch that contains a frame of the joint. -/
def last_heard (p : JointParams K) (heard : List Heard) : Option Heard :=
  heard.reverse.find? fun h => !(frames_of p h).isEmpty

theorem last_heard_silent {p : JointParams K} {heard : List Heard} {h : Heard}
    (hf : frames_of p h = []) : last_heard p (heard ++ [h]) = last_heard p heard := by
  rw [last_heard, List.reverse_append, List.reverse_singleton, List.singleton_append,
    List.find?_cons_of_neg (by rw [hf]; decide)]
  rfl

theorem last_heard_append {p : JointParams K} {heard : List Heard} {h : Heard}
    (hf : frames_of p h ≠ []) : last_heard p (heard ++ [h]) = some h := by
  rw [last_heard, List.reverse_append, List.reverse_singleton, List.singleton_append,
    List.find?_cons_of_pos (by simp [hf])]

/-- The joint's fields agree with the history. -/
structure Tracked (p : JointParams K) (heard : List Heard) (j : Joint K) : Prop where
  has_status : j.has_status = (last_heard p heard).isSome
  last_status : ∀ h, last_heard p heard = some h → j.last_status = h.now
  fault : ∀ h, last_heard p heard = some h →
    (j.fault = 0 ↔ ∀ frame ∈ frames_of p h, frame.fault_code = 0)

theorem Tracked.same {p : JointParams K} {heard : List Heard} {j j' : Joint K}
    (h : Tracked p heard j) (hs : SameStatus j j') : Tracked p heard j' :=
  ⟨hs.has_status.trans h.has_status, fun b hb => hs.last_status.trans (h.last_status b hb),
    fun b hb => by rw [hs.fault]; exact h.fault b hb⟩

/-- The most recent batch with frames of the joint has no fault byte in any of them. -/
def Clean (p : JointParams K) (heard : List Heard) : Prop :=
  ∀ h, last_heard p heard = some h → ∀ frame ∈ frames_of p h, frame.fault_code = 0

/-- A joint that has been heard reports no fault exactly when its history is clean. -/
theorem Tracked.clean {p : JointParams K} {heard : List Heard} {j : Joint K}
    (h : Tracked p heard j) (hs : j.has_status = true) : j.fault = 0 ↔ Clean p heard := by
  obtain ⟨b, hb⟩ := Option.isSome_iff_exists.mp (h.has_status.symm.trans hs)
  rw [h.fault b hb]
  refine ⟨fun hclean b' hb' => ?_, fun hclean => hclean b hb⟩
  obtain rfl := Option.some.inj (hb.symm.trans hb')
  exact hclean

/-- The fault after a batch: the flag says whether a frame of it has been heard. -/
theorem hear_fault (t : Nat) (frames : List RxFrame) (j : Joint K × Bool)
    (h : j.2 = true ∨ frames ≠ []) :
    (frames.foldl (fun j frame => hear t frame j) j).1.fault = 0 ↔
      (j.2 = true → j.1.fault = 0) ∧ ∀ frame ∈ frames, frame.fault_code = 0 := by
  induction frames generalizing j with
  | nil =>
    have hj := h.resolve_right (fun hn => hn rfl)
    simp [hj]
  | cons frame frames ih =>
    have hone : (hear t frame j).1.fault = 0 ↔
        (j.2 = true → j.1.fault = 0) ∧ frame.fault_code = 0 := by
      change (if frame.fault_code ≠ 0 ∨ j.2 = false then frame.fault_code else j.1.fault) = 0 ↔ _
      by_cases hd : frame.fault_code = 0
      · cases hb : j.2 <;> simp [hd]
      · simp [hd]
    have htrue : (hear t frame j).2 = true := rfl
    rw [List.foldl_cons, ih (hear t frame j) (Or.inl htrue), htrue, hone, List.forall_mem_cons]
    tauto

theorem hear_status (t : Nat) (frames : List RxFrame) (j : Joint K × Bool) (h : frames ≠ []) :
    (frames.foldl (fun j frame => hear t frame j) j).1.has_status = true ∧
      (frames.foldl (fun j frame => hear t frame j) j).1.last_status = t := by
  induction frames generalizing j with
  | nil => exact absurd rfl h
  | cons frame frames ih =>
    cases frames with
    | nil => exact ⟨rfl, rfl⟩
    | cons next rest =>
      rw [List.foldl_cons]
      exact ih (hear t frame j) (List.cons_ne_nil _ _)

/-- The history is the batches that the environment has supplied so far. -/
def Supplied {n : Nat} (env : Env) (s : SafeSystem K n) : Prop :=
  s.heard.map (·.frames) = (List.range s.drains).map fun k => (env.batch k).frames

end Status

variable {K : Type} [Field K] [LinearOrder K] {n : Nat} (c : Component K n)

/-- The loop over the joints inside the loop over the frames: each joint hears its own. -/
theorem absorb_joint (t : Nat) (frames : List RxFrame) (joints : Fin n → Joint K × Bool)
    (i : Fin n) :
    frames.foldl (absorb c t) joints i =
      (frames_of (c.joint i) ⟨t, frames⟩).foldl (fun j frame => hear t frame j) (joints i) := by
  induction frames generalizing joints with
  | nil => rfl
  | cons frame frames ih =>
    rw [List.foldl_cons, ih]
    by_cases hf : frame.of (c.joint i) = true
    · simp only [frames_of, List.filter_cons, hf, ↓reduceIte, List.foldl_cons, absorb]
    · simp only [frames_of, List.filter_cons, hf, Bool.false_eq_true, ↓reduceIte, absorb]

/-- A drain keeps every joint in step with the history. -/
theorem Tracked.drain {heard : List Heard} {joints : Fin n → Joint K} {i : Fin n}
    (h : Tracked (c.joint i) heard (joints i)) (t : Nat) (frames : List RxFrame) :
    Tracked (c.joint i) (heard ++ [⟨t, frames⟩])
      (frames.foldl (absorb c t) (fun i => (joints i, false)) i).1 := by
  rw [absorb_joint]
  by_cases hf : frames_of (c.joint i) ⟨t, frames⟩ = []
  · rw [hf]
    exact ⟨by rw [last_heard_silent hf]; exact h.has_status,
      by rw [last_heard_silent hf]; exact h.last_status,
      by rw [last_heard_silent hf]; exact h.fault⟩
  · obtain ⟨hstatus, htime⟩ := hear_status t _ (joints i, false) hf
    have hfault := hear_fault t _ (joints i, false) (Or.inr hf)
    have hlast : last_heard (c.joint i) (heard ++ [⟨t, frames⟩]) = some ⟨t, frames⟩ :=
      last_heard_append hf
    refine ⟨by rw [hlast, hstatus]; rfl, ?_, ?_⟩
    · intro h hh
      obtain rfl := Option.some.inj (hlast.symm.trans hh)
      exact htime
    · intro h hh
      obtain rfl := Option.some.inj (hlast.symm.trans hh)
      rw [hfault]
      simp

/-- A joint that has been heard stays so. -/
theorem absorb_heard (t : Nat) (frames : List RxFrame) (joints : Fin n → Joint K × Bool)
    (i : Fin n) (h : (joints i).1.has_status = true) :
    (frames.foldl (absorb c t) joints i).1.has_status = true := by
  rw [absorb_joint]
  by_cases hf : frames_of (c.joint i) ⟨t, frames⟩ = []
  · rw [hf]
    exact h
  · exact (hear_status t _ (joints i) hf).1

omit [LinearOrder K] in
theorem SameStatus.measured {j j' : Joint K} (h : SameStatus j j') (p : JointParams K) :
    measured_position p j' = measured_position p j := by
  rw [measured_position, measured_position, h.has_status, h.raw_position]

/-- Every joint is in step with the history. -/
def Tracks (s : SafeSystem K n) : Prop := ∀ i, Tracked (c.joint i) s.heard (s.joints i)

theorem Tracks.start : Tracks c {} := by
  intro i
  refine ⟨rfl, ?_, ?_⟩
  · intro h hh
    cases hh
  · intro h hh
    cases hh

end IotRobot.Safe
