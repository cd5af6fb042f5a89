import IotRobot.Safe.StopInvariant

/-!
# Position targets over whole runs

The target of a position-commanded joint is set to the measured position by an
activation and by a claim of its position interface, and moves only in a `write`
that hands a position on. Between two such writes nothing but a (re)initialisation
touches it, so each target handed on is one slew step from the one before.
-/

namespace IotRobot.Safe

open Lib Can

set_option autoImplicit false

section Holds
variable {K : Type} {n : Nat}

/-- The joint's target and the positions handed on for it are those of `s`. -/
structure Holds (i : Fin n) (s s' : SafeSystem K n) : Prop where
  target : (s'.joints i).target = (s.joints i).target
  handed : positions i s'.handed = positions i s.handed

theorem Holds.trans {i : Fin n} {s t u : SafeSystem K n} (h : Holds i s t) (g : Holds i t u) :
    Holds i s u := ⟨g.target.trans h.target, g.handed.trans h.handed⟩

/-- A claim among the started interfaces starts the joint. -/
theorem started_of_claim {name : String} {starts : List String}
    (h : name ++ "/" ++ HW_IF_POSITION ∈ starts) : has_prefix_in starts (name ++ "/") = true := by
  refine List.any_eq_true.mpr ⟨_, h, ?_⟩
  rw [String.toList_append, List.isPrefixOf_iff_prefix]
  exact ⟨HW_IF_POSITION.toList, by simp only [String.toList_append]⟩

end Holds

variable {K : Type} [Field K] [LinearOrder K] {n : Nat} (c : Component K n) (env : Env)

/-- A `write` from `s` to `s'` hands the joint's target `v` to the upstream plugin. -/
def Hands (i : Fin n) (s s' : SafeSystem K n) (v : K) : Prop :=
  positions i s'.handed = positions i s.handed ++ [.fin ((c.joint i).direction * v)]

/-- A claim of the joint's position interface, or a successful activation. -/
def Reinitialises (i : Fin n) (e : Event K n) (s : SafeSystem K n) : Prop :=
  Activates c env e s ∨
    ∃ starts stops, e = .perform_command_mode_switch starts stops .OK ∧
      (c.joint i).name ++ "/" ++ HW_IF_POSITION ∈ starts

/-- An event that neither reinitialises the joint nor hands a position on for it:
NaN is no position. -/
def next_silent (i : Fin n) (m : Managed K n) (e : Event K n) (m' : Managed K n) : Prop :=
  next c env m e m' ∧ ¬ Reinitialises c env i e m.system ∧
    ∃ k, positions i m'.system.handed =
      positions i m.system.handed ++ List.replicate k .nan

theorem Holds.of_watches {c : Component K n} {env : Env} {P : Bus n → Prop} {i : Fin n} {s s' : SafeSystem K n}
    (h : Watches c env P s s') : Holds i s s' := ⟨(h.joints i).target, by rw [h.handed]⟩

theorem stop_motors_holds (i : Fin n) (s : SafeSystem K n) :
    Holds i s (stop_motors c env s) := by
  have hstop := stop_motors_spec c env s
  exact ⟨by rw [hstop.joints], by rw [hstop.handed]⟩

theorem stop_once_holds (i : Fin n) (s : SafeSystem K n) : Holds i s (stop_once c env s) := by
  unfold stop_once
  dsimp only
  split
  · have h := stop_motors_holds c env i { s with active := false }
    exact ⟨h.target, h.handed⟩
  · exact ⟨rfl, rfl⟩

theorem activation_holds (i : Fin n) {s t v : SafeSystem K n} {ok : Bool}
    (hw : wait_for_status c env kActivationWait s = (true, t))
    (hz : zero_joints c env (cleared t) = (ok, v)) : Holds i s v := by
  have h1 := wait_for_status_looks c env kActivationWait s
  have h2 := zero_joints_watches c env (cleared t)
  rw [hw] at h1
  rw [hz] at h2
  have hclear : Holds i t (cleared t) := ⟨rfl, rfl⟩
  exact ((Holds.of_watches h1).trans hclear).trans (Holds.of_watches h2)

/-- Every event but a `write` and a reinitialisation leaves the joint's target alone. -/
theorem step_holds (i : Fin n) (e : Event K n) (s : SafeSystem K n)
    (hr : ¬ Reinitialises c env i e s)
    (hw : ∀ period upstream frames, e ≠ .write period upstream frames) :
    Holds i s (step c env e s).2 := by
  cases e with
  | on_configure opened upstream =>
    simp only [step, on_configure]
    split
    · exact ⟨rfl, rfl⟩
    · split <;> exact ⟨rfl, rfl⟩
  | on_cleanup upstream =>
    have h := stop_once_holds c env i s
    exact ⟨h.target, h.handed⟩
  | on_activate upstream =>
    have hnot : (on_activate c env upstream s).1 ≠ .SUCCESS := fun h =>
      hr (Or.inl ⟨upstream, rfl, by simp only [step, h]⟩)
    change Holds i s (on_activate c env upstream s).2
    have hcases := on_activate_cases c env upstream s
    generalize on_activate c env upstream s = r at hcases hnot
    cases hcases with
    | refused hu => exact ⟨rfl, rfl⟩
    | silent hu hwait =>
      have hlook := wait_for_status_looks c env kActivationWait s
      rw [hwait] at hlook
      exact Holds.of_watches hlook
    | @not_zeroed t v hu hwait hz =>
      exact (activation_holds c env i hwait hz).trans (stop_motors_holds c env i v)
    | success hu hwait hz => exact absurd rfl hnot
  | on_deactivate upstream =>
    have h := stop_motors_holds c env i { s with active := false }
    exact ⟨h.target, h.handed⟩
  | on_shutdown upstream =>
    have h := stop_once_holds c env i s
    exact ⟨h.target, h.handed⟩
  | on_error => exact stop_once_holds c env i s
  | perform_command_mode_switch starts stops upstream =>
    refine ⟨?_, congrArg (positions i) (switch_silent c env starts stops upstream s).handed⟩
    by_cases hu : upstream = .OK
    · subst hu
      have hclaim : starts.contains ((c.joint i).name ++ "/" ++ HW_IF_POSITION) = false := by
        rw [List.contains_eq_mem, decide_eq_false_iff_not]
        exact fun h => hr (Or.inr ⟨starts, stops, rfl, h⟩)
      have hs := (switch_joints c env starts stops s i).target
      rw [hclaim, Bool.and_false] at hs
      exact hs
    · simp only [step, perform_command_mode_switch, ne_eq, hu, not_false_eq_true, ↓reduceIte]
  | set_command j position velocity effort =>
    refine ⟨?_, rfl⟩
    simp only [step, set_command]
    by_cases hij : i = j
    · subst hij
      rw [Function.update_self]
    · rw [Function.update_of_ne hij]
  | read upstream base =>
    rcases read_cases c env upstream base s with ⟨t, hlook, _, he⟩ | ⟨t, hlook, he⟩
    · simp only [step, he]
      have h := stop_motors_holds c env i { t with active := false }
      exact (Holds.of_watches hlook).trans ⟨h.target, h.handed⟩
    · simp only [step, he]
      exact Holds.of_watches hlook
  | write period upstream frames => exact absurd rfl (hw period upstream frames)
  | destroy =>
    simp only [step, destroy]
    split
    · have h := stop_motors_holds c env i s
      exact ⟨h.target, h.handed⟩
    · exact ⟨rfl, rfl⟩

/-- A reinitialisation leaves the target at the measured position. -/
theorem reinitialised_target (i : Fin n) (hp : (c.joint i).position_commanded = true)
    (e : Event K n) (s : SafeSystem K n) (hr : Reinitialises c env i e s) :
    ((step c env e s).2.joints i).target =
      measured_position (c.joint i) ((step c env e s).2.joints i) := by
  rcases hr with ⟨upstream, rfl, hs⟩ | ⟨starts, stops, rfl, hclaim⟩
  · have hsuccess : (on_activate c env upstream s).1 = .SUCCESS := Result.callback.inj hs
    change ((on_activate c env upstream s).2.joints i).target =
      measured_position (c.joint i) ((on_activate c env upstream s).2.joints i)
    have hcases := on_activate_cases c env upstream s
    generalize on_activate c env upstream s = r at hcases hsuccess
    cases hcases with
    | refused hu => exact absurd hsuccess hu
    | silent hu hw => cases hsuccess
    | not_zeroed hu hw hz => cases hsuccess
    | success hu hw hz => simp only [activated, hp, ↓reduceIte, measured_position]
  · have hs := switch_joints c env starts stops s i
    have hc : starts.contains ((c.joint i).name ++ "/" ++ HW_IF_POSITION) = true := by
      rw [List.contains_eq_mem, decide_eq_true_iff]
      exact hclaim
    have ht := hs.target
    rw [hc, started_of_claim hclaim] at ht
    exact ht.trans (hs.status.measured _).symm

/-- A `write` of an active component, or nothing. -/
theorem write_cases (i : Fin n) (period : K) (upstream : ReturnType) (frames : List CanFrame)
    (s : SafeSystem K n) :
    let s' := (write c env period upstream frames s).2
    s' = s ∨ Written (c.joint i) (slew_period period) (s.joints i, positions i s.handed)
      (s'.joints i, positions i s'.handed) := by
  cases ha : s.active with
  | false => exact Or.inl (by rw [write_inactive c env ha])
  | true => exact Or.inr ((write_active c env ha period upstream frames).2.2.2 i)

/-- A target is a number or not set: it is never infinite. -/
def Ordinary (target : Dbl K) : Prop := target = .nan ∨ ∃ q, target = .fin q

/-- Where a `write` slews from: the target, or the measured position for want of one. -/
def slew_start (p : JointParams K) (joint : Joint K) : Dbl K :=
  if joint.target.isNaN then measured_position p joint else joint.target

/-- The position is claimed, and there is a target or a measured position to slew from. -/
structure Slews (joint : Joint K) : Prop where
  claimed : joint.position_claimed = true
  known : joint.target.isNaN = false ∨ joint.has_status = true

/-- One `write` moves the target from `q` to `v`. -/
structure SlewStep (p : JointParams K) (joint : Joint K) (dt q v : K) : Prop where
  step : |v - q| ≤ p.max_velocity * dt
  hold : joint.command_position.isNaN = true → v = q
  excess : ∀ lo hi, p.has_position_limits = true → p.min_position = .fin lo →
    p.max_position = .fin hi → joint.command_position.isNaN = false →
    Dbl.excess lo hi v =
      Dbl.excess lo hi q - min (p.max_velocity * dt) (Dbl.excess lo hi q)

omit [LinearOrder K] in
theorem measured_ordinary (p : JointParams K) (joint : Joint K) :
    Ordinary (measured_position p joint) := by
  unfold measured_position
  split
  · exact Or.inr ⟨_, rfl⟩
  · exact Or.inl rfl

theorem slew_period_nonneg (period : K) : 0 ≤ slew_period period := le_max_left _ _

theorem slew_period_eq (period : K) (h : (0 : K) ≤ kMaxSlewPeriod) :
    slew_period period = min (max period 0) kMaxSlewPeriod := by
  rw [slew_period, max_min_distrib_left, max_comm 0 period, max_eq_right h]

/-- A `write` that hands a target on is one of an active component that exports the
position. -/
theorem hands_written (i : Fin n) {s : SafeSystem K n} {period : K} {upstream : ReturnType}
    {frames : List CanFrame} {v : K}
    (h : Hands c i s (write c env period upstream frames s).2 v) :
    (c.joint i).base_command .position = true ∧
      Written (c.joint i) (slew_period period) (s.joints i, positions i s.handed)
        ((write c env period upstream frames s).2.joints i,
          positions i (write c env period upstream frames s).2.handed) := by
  have hlonger : ∀ l : List (Dbl K), l ++ [.fin ((c.joint i).direction * v)] ≠ l := by
    intro l he
    have hlen := congrArg List.length he
    rw [List.length_append, List.length_singleton] at hlen
    omega
  rcases write_cases c env i period upstream frames s with hsame | hwritten
  · rw [Hands, hsame] at h
    exact absurd h.symm (hlonger _)
  · refine ⟨?_, hwritten⟩
    by_contra hb
    have hhanded := hwritten.handed
    rw [Bool.eq_false_of_not_eq_true hb, Bool.and_false] at hhanded
    exact hlonger _ (h.symm.trans hhanded)

section Ordered
variable [IsStrictOrderedRing K]

theorem slewed_spec {p : JointParams K} (hv : p.Valid) (hp : p.position_commanded = true)
    (joint : Joint K) (q dt : K) (hdt : 0 ≤ dt) :
    ∃ v, slewed p joint (.fin q) dt = .fin v ∧ SlewStep p joint dt q v := by
  have hstep : 0 ≤ p.max_velocity * dt := mul_nonneg (hv.max_velocity hp).le hdt
  unfold slewed
  cases hc : joint.command_position.isNaN with
  | true =>
    refine ⟨q, by rw [if_pos rfl], by rw [sub_self, abs_zero]; exact hstep, fun _ => rfl, ?_⟩
    intro lo hi _ _ _ hfalse
    exact absurd (hc.symm.trans hfalse) (by decide)
  | false =>
    rw [if_neg (by decide)]
    dsimp only
    cases hl : p.has_position_limits with
    | false =>
      rw [if_neg (by decide)]
      obtain ⟨d, hd, habs⟩ := Dbl.slew_spec q (p.max_velocity * dt) joint.command_position hstep hc
      refine ⟨q + d, hd, by rw [add_sub_cancel_left]; exact habs, ?_, ?_⟩
      · intro htrue; exact absurd (hc.symm.trans htrue) (by decide)
      · intro lo hi htrue; exact absurd (hl.symm.trans htrue) (by decide)
    | true =>
      rw [if_pos rfl]
      obtain ⟨lo, hi, hlo, hhi, hle⟩ := hv.limits hl
      obtain ⟨w, hw, hwlo, hwhi⟩ := Dbl.clamp_between hle hc
      rw [hlo, hhi, hw, Dbl.slew_fin q _ w hstep]
      refine ⟨_, rfl, ?_, ?_, ?_⟩
      · rw [add_sub_cancel_left]
        exact abs_le.mpr ⟨le_max_left _ _, max_le (by linarith) (min_le_right _ _)⟩
      · intro htrue; exact absurd (hc.symm.trans htrue) (by decide)
      · intro lo' hi' _ hlo' hhi' _
        obtain rfl := Dbl.fin.inj (hlo.symm.trans hlo')
        obtain rfl := Dbl.fin.inj (hhi.symm.trans hhi')
        exact Dbl.excess_slew q hwlo hwhi hstep

omit [LinearOrder K] [IsStrictOrderedRing K] in
theorem slew_start_nan_iff {p : JointParams K} {joint : Joint K} :
    (slew_start p joint).isNaN = false ↔ joint.target.isNaN = false ∨ joint.has_status = true := by
  have hmeasured : (measured_position p joint).isNaN = false ↔ joint.has_status = true := by
    unfold measured_position
    cases joint.has_status <;> simp
  unfold slew_start
  cases htarget : joint.target.isNaN with
  | true =>
    rw [if_pos rfl, hmeasured]
    exact ⟨.inr, fun h => h.resolve_left Bool.noConfusion⟩
  | false =>
    rw [if_neg Bool.false_ne_true]
    exact iff_of_true htarget (.inl rfl)

/-- A `write` makes one slew step if the position is claimed and there is a position to slew
from; otherwise it hands nothing on and keeps the target. -/
theorem position_command_cases {p : JointParams K} (hv : p.Valid)
    (hp : p.position_commanded = true) (joint : Joint K) (ht : Ordinary joint.target) (dt : K)
    (hdt : 0 ≤ dt) :
    (¬ Slews joint ∧ position_command p joint dt = (joint.target, .nan)) ∨
    (Slews joint ∧ ∃ q v, slew_start p joint = .fin q ∧ SlewStep p joint dt q v ∧
      position_command p joint dt = (.fin v, .fin (p.direction * v))) := by
  by_cases hclaim : joint.position_claimed = false
  · left
    exact ⟨fun h => Bool.false_ne_true (hclaim.symm.trans h.claimed),
      position_command_unclaimed hclaim dt⟩
  · unfold position_command
    rw [if_neg hclaim]
    change (_ ∧ (if (slew_start p joint).isNaN then (slew_start p joint, Dbl.nan) else _) = _) ∨ _
    have hord : Ordinary (slew_start p joint) := by
      unfold slew_start
      split
      · exact measured_ordinary p joint
      · exact ht
    rcases hord with hnan | ⟨q, hq⟩
    · left
      constructor
      · intro h
        have hknown := slew_start_nan_iff (p := p).mpr h.known
        rw [hnan] at hknown
        cases hknown
      rw [hnan]
      have htarget : joint.target = .nan := by
        by_contra hne
        obtain ⟨x, hx⟩ := ht.resolve_left hne
        rw [slew_start, hx] at hnan
        cases hnan
      rw [htarget]
      rfl
    · right
      obtain ⟨v, hslew, hstep⟩ := slewed_spec hv hp joint q dt hdt
      refine ⟨⟨Bool.eq_true_of_not_eq_false hclaim, ?_⟩, q, v, hq, hstep, ?_⟩
      · exact slew_start_nan_iff (p := p).mp (by rw [hq]; rfl)
      change (if (slew_start p joint).isNaN then _ else
        (slewed p joint (slew_start p joint) dt,
          (slewed p joint (slew_start p joint) dt).scale p.direction)) = _
      rw [hq, if_neg (by simp), hslew]
      rfl

/-- While no position is handed on, the target stays. -/
theorem silent_target (i : Fin n) (hp : (c.joint i).position_commanded = true)
    (hb : (c.joint i).base_command .position = true) {m m' : Managed K n}
    {es : List (Event K n)} (hord : Ordinary (m.system.joints i).target)
    (h : Run (next_silent c env i) m es m') :
    (m'.system.joints i).target = (m.system.joints i).target := by
  induction h with
  | nil => rfl
  | @snoc es t u e _ hn ih =>
    rw [← ih] at hord ⊢
    obtain ⟨⟨_, rfl⟩, hr, k, hk⟩ := hn
    by_cases hw : ∃ period upstream frames, e = .write period upstream frames
    · obtain ⟨period, upstream, frames, rfl⟩ := hw
      rcases write_cases c env i period upstream frames t.system with hsame | hwritten
      · exact congrArg (fun s => (SafeSystem.joints s i).target) hsame
      · have htarget := hwritten.target
        have hhanded := hwritten.handed
        rw [hp, if_pos rfl] at htarget
        rw [hp, hb] at hhanded
        rcases position_command_cases (c.valid i) hp (t.system.joints i) hord
          (slew_period period) (slew_period_nonneg period) with ⟨-, hpc⟩ | ⟨-, q, v, -, -, hpc⟩
        · rw [hpc] at htarget
          exact htarget
        · rw [hpc] at hhanded
          have hlast := List.append_cancel_left (hhanded.symm.trans hk)
          have hmem : Dbl.fin ((c.joint i).direction * v) ∈ List.replicate k Dbl.nan :=
            hlast ▸ List.mem_singleton.mpr rfl
          cases List.eq_of_mem_replicate hmem
    · exact (step_holds c env i e t.system hr fun p u f he => hw ⟨p, u, f, he⟩).target

/-- A `write` hands a target on exactly if the component is active, exports the position to the
upstream plugin, and slews. -/
theorem hands_iff (i : Fin n) (hp : (c.joint i).position_commanded = true) {s : SafeSystem K n}
    (hord : Ordinary (s.joints i).target) {period : K} {upstream : ReturnType}
    {frames : List CanFrame} :
    (∃ v, Hands c i s (write c env period upstream frames s).2 v) ↔
      s.active = true ∧ (c.joint i).base_command .position = true ∧ Slews (s.joints i) := by
  constructor
  · rintro ⟨v, h⟩
    obtain ⟨hb, hwritten⟩ := hands_written c env i h
    refine ⟨?_, hb, ?_⟩
    · by_contra hinactive
      rw [Hands, write_inactive c env (Bool.eq_false_of_not_eq_true hinactive)] at h
      exact absurd (congrArg List.length h) (by simp)
    · have hhanded := hwritten.handed
      rw [hp, hb, Bool.true_and, if_pos rfl] at hhanded
      have hlast := List.singleton_inj.mp (List.append_cancel_left (hhanded.symm.trans h))
      rcases position_command_cases (c.valid i) hp (s.joints i) hord (slew_period period)
        (slew_period_nonneg period) with ⟨-, hpc⟩ | ⟨hslews, -⟩
      · rw [hpc] at hlast
        cases hlast
      · exact hslews
  · rintro ⟨hactive, hb, hslews⟩
    have hhanded := ((write_active c env hactive period upstream frames).2.2.2 i).handed
    rw [hp, hb, Bool.true_and, if_pos rfl] at hhanded
    rcases position_command_cases (c.valid i) hp (s.joints i) hord (slew_period period)
      (slew_period_nonneg period) with ⟨hnot, -⟩ | ⟨-, q, v, -, -, hpc⟩
    · exact absurd hslews hnot
    · rw [hpc] at hhanded
      exact ⟨v, hhanded⟩

/-- A `write` that hands on `v` has made a slew step to it. -/
theorem hands_step (i : Fin n) (hp : (c.joint i).position_commanded = true)
    {s : SafeSystem K n} (hord : Ordinary (s.joints i).target) {period : K}
    {upstream : ReturnType} {frames : List CanFrame} {v : K}
    (h : Hands c i s (write c env period upstream frames s).2 v) :
    ((write c env period upstream frames s).2.joints i).target = .fin v ∧
    ∃ q, slew_start (c.joint i) (s.joints i) = .fin q ∧
      SlewStep (c.joint i) (s.joints i) (slew_period period) q v := by
  have hd : (c.joint i).direction ≠ 0 := by
    rcases (c.valid i).direction with hd | hd <;> rw [hd] <;> simp
  obtain ⟨hb, hwritten⟩ := hands_written c env i h
  have htarget := hwritten.target
  have hhanded := hwritten.handed
  rw [hp, if_pos rfl] at htarget
  rw [hp, hb, Bool.true_and, if_pos rfl] at hhanded
  have hlast := List.singleton_inj.mp (List.append_cancel_left (hhanded.symm.trans h))
  rcases position_command_cases (c.valid i) hp (s.joints i) hord (slew_period period)
    (slew_period_nonneg period) with ⟨-, hpc⟩ | ⟨-, q, w, hq, hstep, hpc⟩
  · rw [hpc] at hlast
    cases hlast
  · rw [hpc] at hlast htarget
    obtain rfl := mul_left_cancel₀ hd (Dbl.fin.inj hlast)
    exact ⟨htarget, q, hq, hstep⟩

/-- In every state of a run the target is a number or not set. -/
theorem run_ordinary (i : Fin n) (hp : (c.joint i).position_commanded = true)
    {m : Managed K n} {es : List (Event K n)} (h : Run (next c env) {} es m) :
    Ordinary (m.system.joints i).target := by
  refine h.invariant (fun m => Ordinary (m.system.joints i).target) (Or.inl rfl) ?_
  rintro a b e hord ⟨_, rfl⟩
  change Ordinary ((step c env e a.system).2.joints i).target
  by_cases hr : Reinitialises c env i e a.system
  · rw [reinitialised_target c env i hp e a.system hr]
    exact measured_ordinary _ _
  · by_cases hw : ∃ period upstream frames, e = .write period upstream frames
    · obtain ⟨period, upstream, frames, rfl⟩ := hw
      rcases write_cases c env i period upstream frames a.system with hsame | hwritten
      · exact (congrArg (fun s => Ordinary (SafeSystem.joints s i).target) hsame).mpr hord
      · have htarget := hwritten.target
        rw [hp, if_pos rfl] at htarget
        refine (congrArg Ordinary htarget).mpr ?_
        rcases position_command_cases (c.valid i) hp (a.system.joints i) hord
          (slew_period period) (slew_period_nonneg period) with ⟨-, hpc⟩ | ⟨-, q, v, -, -, hpc⟩
        · rw [hpc]
          exact hord
        · rw [hpc]
          exact Or.inr ⟨v, rfl⟩
    · rw [(step_holds c env i e a.system hr fun p u f he => hw ⟨p, u, f, he⟩).target]
      exact hord

/-- Clamp and slew over whole runs. From a reinitialisation, or from a `write` that hands a
target on, nothing is handed on before a `write`. This one hands a target on exactly if the
component is active and exports the position, and the position is claimed and known; it is near
the measured position, or one slew step away from the target before. -/
theorem targets_clamped_and_slewed (i : Fin n) (hp : (c.joint i).position_commanded = true)
    {m₀ m₁ m₂ m₃ : Managed K n} {e : Event K n} {ds es : List (Event K n)} {period : K}
    {upstream : ReturnType} {frames : List CanFrame} (hreach : Run (next c env) {} ds m₀)
    (hfirst : next c env m₀ e m₁) (hquiet : Run (next_silent c env i) m₁ es m₂)
    (hlast : next c env m₂ (.write period upstream frames) m₃) :
    let p := c.joint i
    let measured (m : Managed K n) := measured_position p (m.system.joints i)
    let stride := p.max_velocity * min (max period 0) kMaxSlewPeriod
    ((∃ v, Hands c i m₂.system m₃.system v) ↔
      m₂.system.active = true ∧ p.base_command .position = true ∧
        (m₂.system.joints i).position_claimed = true ∧
        ((m₂.system.joints i).target.isNaN = false ∨ (m₂.system.joints i).has_status = true)) ∧
    ∀ v, Hands c i m₂.system m₃.system v →
      (Reinitialises c env i e m₀.system →
        ∃ q, (if (measured m₁).isNaN then measured m₂ else measured m₁) = .fin q ∧
          |v - q| ≤ p.max_velocity * kMaxSlewPeriod) ∧
      (∀ u period' upstream' frames', e = .write period' upstream' frames' →
        Hands c i m₀.system m₁.system u →
        |v - u| ≤ stride ∧
        ∀ lo hi, p.has_position_limits = true → p.min_position = .fin lo →
          p.max_position = .fin hi →
          (lo ≤ u ∧ u ≤ hi → lo ≤ v ∧ v ≤ hi) ∧
          Dbl.excess lo hi v ≤ Dbl.excess lo hi u ∧
          ((m₂.system.joints i).command_position.isNaN = false →
            Dbl.excess lo hi v = Dbl.excess lo hi u - min stride (Dbl.excess lo hi u))) := by
  intro p measured stride
  obtain ⟨_, rfl⟩ := hlast
  obtain rfl : m₁ = perform c env m₀ e := hfirst.2
  have hreach₁ : Run (next c env) {} (ds ++ [e]) (perform c env m₀ e) := hreach.snoc hfirst
  have hord₁ := run_ordinary c env i hp hreach₁
  have hord₂ : Ordinary (m₂.system.joints i).target :=
    run_ordinary c env i hp (hreach₁.append (hquiet.mono fun _ _ _ h => h.1))
  constructor
  · refine (hands_iff c env i hp hord₂).trans (and_congr_right' (and_congr_right' ?_))
    exact ⟨fun h => ⟨h.claimed, h.known⟩, fun h => ⟨h.1, h.2⟩⟩
  intro v hands
  have hexported := (hands_written c env i hands).1
  have htarget₂ := silent_target c env i hp hexported hord₁ hquiet
  obtain ⟨_, q, hq, hstep⟩ := hands_step c env i hp hord₂ hands
  have hk : (0 : K) ≤ kMaxSlewPeriod := by unfold kMaxSlewPeriod; positivity
  have hvelocity : 0 ≤ p.max_velocity := ((c.valid i).max_velocity hp).le
  have hperiod := slew_period_eq period hk
  rw [slew_start, htarget₂] at hq
  constructor
  · intro hr
    have hm : ((perform c env m₀ e).system.joints i).target = measured (perform c env m₀ e) :=
      reinitialised_target c env i hp e m₀.system hr
    rw [hm] at hq
    refine ⟨q, hq, hstep.step.trans ?_⟩
    · rw [hperiod]
      exact mul_le_mul_of_nonneg_left (min_le_right _ _) hvelocity
  · rintro u period' upstream' frames' rfl hu
    have hord₀ := run_ordinary c env i hp hreach
    obtain ⟨htarget₁, _⟩ := hands_step c env i hp hord₀ hu
    change ((perform c env m₀ (.write period' upstream' frames')).system.joints i).target = .fin u
      at htarget₁
    rw [htarget₁] at hq
    obtain rfl : u = q := Dbl.fin.inj hq
    rw [hperiod] at hstep
    refine ⟨hstep.step, fun lo hi hl hlo hhi => ?_⟩
    have hpos : 0 ≤ stride := mul_nonneg hvelocity (le_min (le_max_right _ _) hk)
    have hexcess : Dbl.excess lo hi v = Dbl.excess lo hi u ∨
        Dbl.excess lo hi v = Dbl.excess lo hi u - min stride (Dbl.excess lo hi u) := by
      cases hc : (m₂.system.joints i).command_position.isNaN with
      | true => exact Or.inl (by rw [hstep.hold hc])
      | false => exact Or.inr (hstep.excess lo hi hl hlo hhi hc)
    have hnonneg : 0 ≤ min stride (Dbl.excess lo hi u) := le_min hpos (le_max_left _ _)
    refine ⟨?_, ?_, hstep.excess lo hi hl hlo hhi⟩
    · intro hin
      rw [← Dbl.excess_eq_zero] at hin ⊢
      rcases hexcess with h | h
      · rw [h, hin]
      · rw [h, hin, min_eq_right hpos, sub_zero]
    · rcases hexcess with h | h
      · exact h.le
      · linarith

end Ordered

/-- The gizmo's controller claims its position. -/
def claimed : Managed ℚ 1 :=
  perform gizmo (fault_at 9) (started_up 9)
    (.perform_command_mode_switch ["gizmo/position"] [] .OK)

/-- It commands a position one radian away. -/
def commanded : Managed ℚ 1 :=
  perform gizmo (fault_at 9) claimed (.set_command 0 (.fin 1) .nan .nan)

def written (m : Managed ℚ 1) : Managed ℚ 1 :=
  perform gizmo (fault_at 9) m (.write (1 / 100) .OK [])

theorem commanded_run : Run (next_silent gizmo (fault_at 9) 0) claimed
    [.set_command 0 (.fin 1) .nan .nan] commanded := by
  have hl : claimed.lifecycle ≠ .destroyed := by decide +kernel
  refine Run.single ⟨⟨hl, rfl⟩, ?_, 0, ?_⟩
  · rintro (⟨upstream, he, _⟩ | ⟨starts, stops, he, _⟩) <;> cases he
  · decide +kernel

/-- The first target is a fiftieth of a radian from the measured 0, and the second as
much further. -/
theorem targets_clamped_and_slewed_gizmo :
    (∃ v, Hands gizmo 0 commanded.system (written commanded).system v) ∧
    (∃ q, measured_position (gizmo.joint 0) (claimed.system.joints 0) = .fin q ∧
      |1 / 50 - q| ≤ 2 * kMaxSlewPeriod) ∧
    |1 / 25 - 1 / 50| ≤ (2 : ℚ) * min (max (1 / 100) 0) kMaxSlewPeriod := by
  have hl₀ : (started_up 9).lifecycle ≠ .destroyed := by decide +kernel
  have hl : claimed.lifecycle ≠ .destroyed := by decide +kernel
  have hl₁ : commanded.lifecycle ≠ .destroyed := by decide +kernel
  have hl₂ : (written commanded).lifecycle ≠ .destroyed := by decide +kernel
  have hhands₁ : Hands gizmo 0 commanded.system (written commanded).system (1 / 50) := by
    unfold Hands
    decide +kernel
  have hhands₂ : Hands gizmo 0 (written commanded).system (written (written commanded)).system
      (1 / 25) := by
    unfold Hands
    decide +kernel
  have hclaimed : next gizmo (fault_at 9) (started_up 9)
      (.perform_command_mode_switch ["gizmo/position"] [] .OK) claimed := ⟨hl₀, rfl⟩
  have hset : next gizmo (fault_at 9) claimed (.set_command 0 (.fin 1) .nan .nan) commanded :=
    ⟨hl, rfl⟩
  have hwrite : next gizmo (fault_at 9) commanded (.write (1 / 100) .OK []) (written commanded) :=
    ⟨hl₁, rfl⟩
  have hreach := ((started_up_run 9).snoc hclaimed).snoc hset
  obtain ⟨hhands, hfirst⟩ := targets_clamped_and_slewed gizmo (fault_at 9) 0 rfl (started_up_run 9)
    hclaimed commanded_run hwrite
  obtain ⟨q, hq, habs⟩ := (hfirst (1 / 50) hhands₁).1 (Or.inr ⟨_, _, rfl, List.mem_singleton.mpr rfl⟩)
  refine ⟨hhands.mpr (by decide +kernel), ⟨q, hq, habs⟩, ?_⟩
  have hagain : next gizmo (fault_at 9) (written commanded) (.write (1 / 100) .OK [])
      (written (written commanded)) := ⟨hl₂, rfl⟩
  have hsecond := targets_clamped_and_slewed gizmo (fault_at 9) 0 rfl hreach hwrite Run.nil hagain
  exact ((hsecond.2 (1 / 25) hhands₂).2 (1 / 50) _ _ _ rfl hhands₁).1

end IotRobot.Safe
