import IotRobot.Safe.Watchdog

/-!
# Activations over a fault

`wait_for_status` refuses a component with a fault, but `zero_joints` drains the socket
again, at least once, and looks at no fault. So an activation that succeeds leaves no
fault recorded exactly when the batches drained after the status check carry none.
-/

namespace IotRobot.Safe

open Lib Can

set_option autoImplicit false

section Batches
variable {K : Type} (env : Env) (p : JointParams K)

/-- The frames of the joint in the batch that drain `k` finds. -/
def batch_frames (k : Nat) : List RxFrame := (env.batch k).frames.filter fun frame => frame.of p

/-- Of the drains from `a` to before `b`, the last that finds a frame of the joint finds
no fault byte in any of them. -/
def LastClean (a b : Nat) : Prop :=
  ∀ k, a ≤ k → k < b → batch_frames env p k ≠ [] →
    (∀ l, k < l → l < b → batch_frames env p l = []) →
    ∀ frame ∈ batch_frames env p k, frame.fault_code = 0

variable {env p}

theorem LastClean.zero : LastClean env p 0 0 := fun _ _ h => absurd h (Nat.not_lt_zero _)

theorem lastClean_silent {b : Nat} (h : batch_frames env p b = []) :
    LastClean env p 0 (b + 1) ↔ LastClean env p 0 b := by
  constructor
  · intro hc k hk hkb hne hlater
    refine hc k hk (by omega) hne fun l hkl hlb => ?_
    rcases Nat.lt_succ_iff_lt_or_eq.mp hlb with hl | rfl
    · exact hlater l hkl hl
    · exact h
  · intro hc k hk hkb hne hlater
    rcases Nat.lt_succ_iff_lt_or_eq.mp hkb with hl | rfl
    · exact hc k hk hl hne fun l hkl hlb => hlater l hkl (by omega)
    · exact absurd h hne

theorem lastClean_heard {b : Nat} (h : batch_frames env p b ≠ []) :
    LastClean env p 0 (b + 1) ↔ ∀ frame ∈ batch_frames env p b, frame.fault_code = 0 := by
  constructor
  · intro hc
    exact hc b (Nat.zero_le b) (Nat.lt_succ_self b) h fun l hl hlb => by omega
  · intro hc k hk hkb hne hlater
    rcases Nat.lt_succ_iff_lt_or_eq.mp hkb with hl | rfl
    · exact absurd (hlater b hl (Nat.lt_succ_self b)) h
    · exact hc

/-- The history is clean when its last drain with a frame of the joint is. -/
theorem clean_iff (b : Nat) (heard : List Heard)
    (hs : heard.map (·.frames) = (List.range b).map fun k => (env.batch k).frames) :
    Clean p heard ↔ LastClean env p 0 b := by
  induction b generalizing heard with
  | zero =>
    obtain rfl : heard = [] := List.map_eq_nil_iff.mp hs
    exact ⟨fun _ => LastClean.zero, fun _ h hh => by cases hh⟩
  | succ b ih =>
    rw [List.range_succ, List.map_append] at hs
    obtain ⟨before, last, rfl, hbefore, hlast⟩ := List.map_eq_append_iff.mp hs
    obtain ⟨h, rfl, hh⟩ := List.map_eq_singleton_iff.mp hlast
    have hframes : frames_of p h = batch_frames env p b := by
      rw [frames_of, batch_frames, hh]
    by_cases hf : batch_frames env p b = []
    · rw [lastClean_silent hf, ← ih before hbefore, Clean, Clean,
        last_heard_silent (hframes.trans hf)]
    · rw [lastClean_heard hf, Clean, last_heard_append (hframes ▸ hf), ← hframes]
      exact ⟨fun hc => hc h rfl, fun hc h' hh' => Option.some.inj hh' ▸ hc⟩

/-- After a clean stretch only the later drains count. -/
theorem lastClean_split {a b : Nat} (hab : a ≤ b) (h : LastClean env p 0 a) :
    LastClean env p 0 b ↔ LastClean env p a b := by
  constructor
  · intro hc k _ hkb
    exact hc k (Nat.zero_le k) hkb
  · intro hc k _ hkb hne hlater
    rcases Nat.lt_or_ge k a with hka | hka
    · exact h k (Nat.zero_le k) hka hne fun l hkl hla => hlater l hkl (hla.trans_le hab)
    · exact hc k hka hkb hne hlater

end Batches

variable {K : Type} [Field K] [LinearOrder K] {n : Nat} (c : Component K n) (env : Env)

/-- In a state in step with the supplied batches, no fault is recorded for a joint that
has been heard exactly when its last batch is clean. -/
theorem fault_iff {s : SafeSystem K n} (hw : WatchInv c env s) {i : Fin n}
    (hs : (s.joints i).has_status = true) :
    (s.joints i).fault = 0 ↔ LastClean env (c.joint i) 0 s.drains :=
  ((hw.tracks i).clean hs).trans (clean_iff s.drains s.heard hw.supplied)

/-- An activation that succeeds leaves no fault recorded if and only if no joint's last
batch, of those drained after the status check, carries a fault. -/
theorem activation_clean_iff {es : List (Event K n)} {m m' : Managed K n}
    {upstream : CallbackReturn} (hr : Run (next c env) {} es m)
    (hn : next c env m (.on_activate upstream) m')
    (hs : (step c env (.on_activate upstream) m.system).1 = .callback .SUCCESS) :
    (∀ i, (m'.system.joints i).fault = 0) ↔
      ∀ i, LastClean env (c.joint i)
        (wait_for_status c env kActivationWait m.system).2.drains m'.system.drains := by
  obtain ⟨hi, hw⟩ := run_watch c env hr
  have hw' := next_watch c env hi hw hn
  obtain ⟨_, rfl⟩ := hn
  have hsuccess : (on_activate c env upstream m.system).1 = .SUCCESS := Result.callback.inj hs
  have hheard := activated_heard c env hsuccess
  refine forall_congr' fun i => (fault_iff c env hw' (hheard i)).trans ?_
  change LastClean env _ 0 (on_activate c env upstream m.system).2.drains ↔
    LastClean env _ _ (on_activate c env upstream m.system).2.drains
  have hcases := on_activate_cases c env upstream m.system
  generalize on_activate c env upstream m.system = r at hcases hsuccess
  cases hcases with
  | refused hu => exact absurd hsuccess hu
  | silent hu hwait => cases hsuccess
  | not_zeroed hu hwait hz => cases hsuccess
  | @success t v hu hwait hz =>
    have hlook := wait_for_status_looks c env kActivationWait m.system
    rw [hwait] at hlook ⊢
    have hwt : WatchInv c env t :=
      ⟨hlook.follows.tracks hw.tracks, hlook.follows.supplied hw.supplied,
        fun _ => (wait_for_status_ok c env hwait).1⟩
    have hclean := (fault_iff c env hwt ((wait_for_status_ok c env hwait).1 i)).mp
      ((wait_for_status_ok c env hwait).2 i)
    exact lastClean_split (activation_follows c env hwait hz).2.drains hclean

/-- A fault that first shows in the batch drained after the status check. -/
theorem activation_over_fault :
    ¬ ∀ (c : Component ℚ 1) (env : Env) (es : List (Event ℚ 1)) (m m' : Managed ℚ 1),
      Run (next c env) {} es m → next c env m (.on_activate .SUCCESS) m' →
      (step c env (.on_activate .SUCCESS) m.system).1 = .callback .SUCCESS →
      ∀ i, (m'.system.joints i).fault = 0 := by
  intro h
  have hrun : Run (next gizmo (fault_at 1)) {} [.on_configure true .SUCCESS] (configured 1) :=
    Run.single ⟨rfl, rfl⟩
  have hzero := h gizmo (fault_at 1) _ (configured 1) (started_up 1) hrun ⟨rfl, rfl⟩
    (by decide +kernel) 0
  revert hzero
  decide +kernel

/-- Without a fault in any batch the condition holds. -/
theorem activation_clean_iff_gizmo :
    LastClean (fault_at 9) (gizmo.joint 0)
      (wait_for_status gizmo (fault_at 9) kActivationWait (configured 9).system).2.drains
      (started_up 9).system.drains := by
  have hrun : Run (next gizmo (fault_at 9)) {} [.on_configure true .SUCCESS] (configured 9) :=
    Run.single ⟨rfl, rfl⟩
  have hactivated : next gizmo (fault_at 9) (configured 9) (.on_activate .SUCCESS)
      (started_up 9) := ⟨rfl, rfl⟩
  have hzero : ∀ i, ((started_up 9).system.joints i).fault = 0 := by decide +kernel
  exact (activation_clean_iff gizmo (fault_at 9) hrun hactivated (by decide +kernel)).mp hzero 0

end IotRobot.Safe
