import IotRobot.Safe.Watchdog

/-!
# What an activation sends and waits for

The zeroing sends each of its joints a release directly followed by a temporary origin, in
the order of the joints and up to the first one that cannot be sent. It then succeeds once
a status of every one of them came in after its own origin and reads near zero.
-/

namespace IotRobot.Safe

open Lib Can

set_option autoImplicit false

section Only
variable {K : Type}

/-- Of a joint nothing but the members that status frames set has changed. -/
def OnlyHears (j j' : Joint K) : Prop :=
  j' = { j with
    has_status := j'.has_status
    last_status := j'.last_status
    raw_position := j'.raw_position
    raw_current := j'.raw_current
    temperature := j'.temperature
    fault := j'.fault }

theorem OnlyHears.refl (j : Joint K) : OnlyHears j j := rfl

theorem OnlyHears.trans {j k l : Joint K} (h : OnlyHears j k) (g : OnlyHears k l) :
    OnlyHears j l := by
  unfold OnlyHears at *
  rw [g, h]

theorem hear_only (t : Nat) (frame : RxFrame) (j : Joint K × Bool) :
    OnlyHears j.1 (hear t frame j).1 := by
  simp only [OnlyHears, hear]

/-- The joints have heard status frames and nothing else has happened to them. -/
def AllOnlyHear {n : Nat} (s s' : SafeSystem K n) : Prop :=
  ∀ i, OnlyHears (s.joints i) (s'.joints i)

theorem AllOnlyHear.trans {n : Nat} {s t u : SafeSystem K n} (h : AllOnlyHear s t)
    (g : AllOnlyHear t u) : AllOnlyHear s u := fun i => (h i).trans (g i)

end Only

variable {K : Type} [Field K] [LinearOrder K] {n : Nat} (c : Component K n) (env : Env)

theorem drained_only (s : SafeSystem K n) : AllOnlyHear s (drained c env s) := by
  have hfold : ∀ (t : Nat) (frames : List RxFrame) (joints : Fin n → Joint K × Bool) (i : Fin n),
      OnlyHears (joints i).1 (frames.foldl (absorb c t) joints i).1 := by
    intro t frames
    induction frames with
    | nil => exact fun joints i => OnlyHears.refl _
    | cons frame frames ih =>
      intro joints i
      rw [List.foldl_cons]
      refine OnlyHears.trans ?_ (ih (absorb c t joints frame) i)
      unfold absorb
      split
      · exact hear_only t frame (joints i)
      · exact OnlyHears.refl _
  exact fun i => hfold _ _ (fun i => (s.joints i, false)) i

theorem drain_status_only (s : SafeSystem K n) : AllOnlyHear s (drain_status c env s).2 := by
  cases h : s.socket with
  | true => rw [drain_status_open c env h]; exact drained_only c env s
  | false => rw [drain_status_closed c env h]; exact fun i => OnlyHears.refl _

/-- The joints that an activation zeroes, in order. -/
def to_zero : List (Fin n) → List (Fin n) := List.filter fun i => (c.joint i).zero_on_activate

/-- A release and a temporary origin for each of the joints. -/
def origin_frames (l : List (Fin n)) : List (Bus n) :=
  l.flatMap fun i => [.own i (zero_current (c.joint i)), .own i (set_origin (c.joint i))]

/-- What the first loop of `zero_joints` over `l` leaves. -/
structure Origins (l : List (Fin n)) (sent : Fin n → Nat) (s : SafeSystem K n)
    (r : Bool × (Fin n → Nat) × SafeSystem K n) : Prop where
  joints : r.2.2.joints = s.joints
  bus : ∃ first, first <+: to_zero c l ∧ r.2.2.bus = s.bus ++ origin_frames c first
  ok : r.1 = true → r.2.2.bus = s.bus ++ origin_frames c (to_zero c l) ∧
    (∀ i ∈ to_zero c l, r.2.1 i = env.clock.reading (s.readings + (to_zero c l).idxOf i)) ∧
    ∀ i, i ∉ to_zero c l → r.2.1 i = sent i

theorem send_origins_spec (l : List (Fin n)) (hl : l.Nodup) (sent : Fin n → Nat)
    (s : SafeSystem K n) : Origins c env l sent s (send_origins c env l sent s) := by
  induction l generalizing sent s with
  | nil =>
    refine ⟨rfl, ⟨[], List.prefix_refl _, ?_⟩, fun _ => ⟨?_, ?_, fun _ _ => rfl⟩⟩
    · exact (List.append_nil _).symm
    · exact (List.append_nil _).symm
    · exact fun i hi => absurd hi List.not_mem_nil
  | cons i l ih =>
    obtain ⟨hi, hl⟩ := List.nodup_cons.mp hl
    unfold send_origins
    by_cases hz : (c.joint i).zero_on_activate = true
    · rw [if_pos hz]
      have hfirst : to_zero c (i :: l) = i :: to_zero c l := List.filter_cons_of_pos hz
      rcases hr : send env i (zero_current (c.joint i)) s with ⟨released, t⟩
      rcases ho : send env i (set_origin (c.joint i)) t with ⟨zeroed, u⟩
      -- both frames are attempted, whatever becomes of the first
      have hu : u.joints = s.joints ∧ u.readings = s.readings ∧
          u.bus = s.bus ++ origin_frames c [i] := by
        obtain ⟨-, rfl⟩ := Prod.mk.inj hr
        obtain ⟨-, rfl⟩ := Prod.mk.inj ho
        exact ⟨rfl, rfl, List.append_assoc ..⟩
      obtain ⟨hjoints, hreadings, hbus⟩ := hu
      simp only
      rw [ho]
      simp only
      by_cases hfail : released = false ∨ zeroed = false
      · rw [if_pos hfail]
        refine ⟨hjoints, ⟨[i], ?_, hbus⟩, fun h => by cases h⟩
        rw [hfirst]
        exact List.prefix_append [i] _
      · rw [if_neg hfail]
        have h := ih hl (Function.update sent i (now env u).1) (now env u).2
        have hnow : (now env u).2.bus = s.bus ++ origin_frames c [i] := hbus
        have hframes : ∀ rest, origin_frames c (i :: rest) =
            origin_frames c [i] ++ origin_frames c rest := fun rest => by
          simp [origin_frames]
        refine ⟨h.joints.trans hjoints, ?_, fun hok => ?_⟩
        · obtain ⟨first, hpre, hb⟩ := h.bus
          refine ⟨i :: first, ?_, ?_⟩
          · rw [hfirst]
            exact (List.prefix_cons_inj i).mpr hpre
          · rw [hframes, ← List.append_assoc, ← hnow]
            exact hb
        · obtain ⟨hb, hsent, hother⟩ := h.ok hok
          rw [hfirst]
          refine ⟨?_, fun j hj => ?_, fun j hj => ?_⟩
          · rw [hframes, ← List.append_assoc, ← hnow]
            exact hb
          · by_cases hji : j = i
            · subst hji
              have hnot : j ∉ to_zero c l := fun hm => hi (List.mem_of_mem_filter hm)
              rw [List.idxOf_cons_self, Nat.add_zero, ← hreadings, hother j hnot,
                Function.update_self]
              rfl
            · have hmem : j ∈ to_zero c l := (List.mem_cons.mp hj).resolve_left hji
              rw [List.idxOf_cons_ne _ (Ne.symm hji), hsent j hmem]
              show env.clock.reading (u.readings + 1 + _) = _
              rw [hreadings]
              congr 1
              omega
          · obtain ⟨hji, hnot⟩ := not_or.mp (List.mem_cons.not.mp hj)
            rw [hother j hnot, Function.update_of_ne hji]
    · rw [if_neg hz]
      have hskip : to_zero c (i :: l) = to_zero c l := List.filter_cons_of_neg hz
      have h := ih hl sent s
      exact ⟨h.joints, hskip ▸ h.bus, hskip ▸ h.ok⟩

/-- What a loop of `zero_round` leaves. -/
structure Waited (sent : Fin n → Nat) (s : SafeSystem K n) (b : Bool × SafeSystem K n) : Prop where
  only : AllOnlyHear s b.2
  bus : b.2.bus = s.bus
  ok : b.1 = true → ∀ i, zeroed c sent b.2 i = true

theorem zero_loop_waits (sent : Fin n → Nat) (deadline : Nat) (s : SafeSystem K n) :
    ∃ b, loop (zero_round c env sent deadline) (env.clock.reach deadline + 1) s = some b ∧
      Waited c sent s b := by
  have hround : ∀ t, AllOnlyHear s t → t.bus = s.bus →
      (∀ t', zero_round c env sent deadline t = .inr t' → AllOnlyHear s t' ∧ t'.bus = s.bus) ∧
      ∀ b, zero_round c env sent deadline t = .inl b → Waited c sent s b := by
    intro t hs hbus
    have hdrain := hs.trans (drain_status_only c env t)
    have hkeep := (drain_status_looks c env t).bus.trans hbus
    unfold zero_round
    rcases hp : drain_status c env t with ⟨ok, u⟩
    rw [hp] at hdrain hkeep
    simp only at hdrain hkeep ⊢
    split
    · refine ⟨fun t' h => (by cases h), fun b h => ?_⟩
      cases h
      exact ⟨hdrain, hkeep, fun h => by cases h⟩
    · split
      · next hall =>
        refine ⟨fun t' h => (by cases h), fun b h => ?_⟩
        cases h
        exact ⟨hdrain, hkeep, fun _ i => List.all_eq_true.mp hall i (List.mem_finRange i)⟩
      · split
        · refine ⟨fun t' h => (by cases h), fun b h => ?_⟩
          cases h
          exact ⟨hdrain, hkeep, fun h => by cases h⟩
        · refine ⟨fun t' h => ?_, fun b h => (by cases h)⟩
          cases h
          exact ⟨hdrain, hkeep⟩
  obtain ⟨b, hloop, -⟩ := zero_loop c env sent deadline s
  refine ⟨b, hloop, ?_⟩
  refine loop_inv (zero_round c env sent deadline) (fun t => AllOnlyHear s t ∧ t.bus = s.bus)
    (Waited c sent s) (fun t t' ht h => (hround t ht.1 ht.2).1 t' h)
    (fun t b ht h => (hround t ht.1 ht.2).2 b h) _ s b ⟨fun i => OnlyHears.refl _, rfl⟩ hloop

/-- What the zeroing of the joints leaves. -/
structure Zeroes (s : SafeSystem K n) (r : Bool × SafeSystem K n) : Prop where
  only : AllOnlyHear s r.2
  bus : ∃ first, first <+: to_zero c (List.finRange n) ∧ r.2.bus = s.bus ++ origin_frames c first
  ok : r.1 = true → r.2.bus = s.bus ++ origin_frames c (to_zero c (List.finRange n)) ∧
    ∀ i ∈ to_zero c (List.finRange n),
      env.clock.reading (s.readings + 1 + (to_zero c (List.finRange n)).idxOf i) <
          (r.2.joints i).last_status ∧
        |((r.2.joints i).raw_position : K) * kDegPerCount| ≤ kZeroToleranceDeg

theorem zero_joints_spec (s : SafeSystem K n) (hs : s.socket = true) :
    Zeroes c env s (zero_joints c env s) := by
  have hnone : ∀ t : SafeSystem K n, AllOnlyHear s t → t.bus = s.bus →
      Zeroes c env s (false, t) := fun t hj hb =>
    ⟨hj, ⟨[], List.nil_prefix, hb.trans (List.append_nil _).symm⟩, fun h => by cases h⟩
  have hdrain := drain_status_only c env s
  have hlook := drain_status_looks c env s
  have hreadings : (drain_status c env s).2.readings = s.readings + 1 := by
    rw [drain_status_open c env hs]
    rfl
  unfold zero_joints
  rcases hp : drain_status c env s with ⟨drained, t⟩
  rw [hp] at hdrain hlook hreadings
  simp only at hdrain hlook hreadings ⊢
  split
  · exact hnone t hdrain hlook.bus
  · have hsend := send_origins_spec c env (List.finRange n) (List.nodup_finRange n) (fun _ => 0) t
    rcases ho : send_origins c env (List.finRange n) (fun _ => 0) t with ⟨ok, sent, u⟩
    rw [ho] at hsend
    have honly : AllOnlyHear s u := fun i => by
      rw [show u.joints = t.joints from hsend.joints]
      exact hdrain i
    have hbus : ∃ first, first <+: to_zero c (List.finRange n) ∧
        u.bus = s.bus ++ origin_frames c first := by
      rw [← hlook.bus]
      exact hsend.bus
    simp only at hsend ⊢
    split
    · exact ⟨honly, hbus, fun h => by cases h⟩
    · next hok =>
      obtain ⟨hall, hsent, -⟩ := hsend.ok (Bool.eq_true_of_not_eq_false hok)
      have hall : u.bus = s.bus ++ origin_frames c (to_zero c (List.finRange n)) := by
        rw [← hlook.bus]
        exact hall
      split
      · next hany =>
        -- no joint to zero
        have hempty : to_zero c (List.finRange n) = [] := by
          refine List.filter_eq_nil_iff.mpr fun i hi => ?_
          simpa using List.all_eq_true.mp hany i hi
        refine ⟨honly, hbus, fun _ => ⟨hall, fun i hi => ?_⟩⟩
        rw [hempty] at hi
        exact absurd hi List.not_mem_nil
      · simp only [now]
        obtain ⟨⟨done, v⟩, hloop, hwait⟩ := zero_loop_waits c env sent
          (env.clock.reading u.readings + kActivationWait * nsPerMs) (now env u).2
        simp only [now] at hloop
        rw [hloop, Option.getD_some]
        have hv : AllOnlyHear s v := honly.trans hwait.only
        have hvbus : v.bus = u.bus := hwait.bus
        refine ⟨hv, hvbus ▸ hbus, fun hdone => ⟨hvbus.trans hall, fun i hi => ?_⟩⟩
        have hz : zeroed c sent v i = true := hwait.ok hdone i
        have hzero : (c.joint i).zero_on_activate = true := (List.mem_filter.mp hi).2
        have htime : sent i = env.clock.reading (t.readings +
            (to_zero c (List.finRange n)).idxOf i) := hsent i hi
        rw [zeroed, hzero, htime, hreadings] at hz
        simpa using hz

/-- What an activation leaves on the bus and in the joints. -/
structure Zeroed (s : SafeSystem K n) (r : CallbackReturn × SafeSystem K n) : Prop where
  success : r.1 = .SUCCESS →
    r.2.bus = s.bus ++ origin_frames c (to_zero c (List.finRange n)) ∧
    (∀ i, (c.joint i).zero_on_activate = true →
      ∃ h, last_heard (c.joint i) r.2.heard = some h ∧
        env.clock.reading ((wait_for_status c env kActivationWait s).2.readings + 1 +
          (to_zero c (List.finRange n)).idxOf i) < h.now ∧
        |((r.2.joints i).raw_position : K) * kDegPerCount| ≤ kZeroToleranceDeg) ∧
    ∀ i, (c.joint i).position_commanded = true →
      (r.2.joints i).target = measured_position (c.joint i) (r.2.joints i)
  failure : r.1 ≠ .SUCCESS → r.2.bus = s.bus ∨
    ∃ first rounds, first <+: to_zero c (List.finRange n) ∧
      r.2.bus = s.bus ++ origin_frames c first ++ stop_frames c rounds

theorem on_activate_zeroed (upstream : CallbackReturn) {s : SafeSystem K n}
    (hs : s.socket = true) (htracks : Tracks c (on_activate c env upstream s).2) :
    Zeroed c env s (on_activate c env upstream s) := by
  have hcases := on_activate_cases c env upstream s
  have hheard : (on_activate c env upstream s).1 = .SUCCESS →
      AllHeard (on_activate c env upstream s).2 := activated_heard c env
  generalize on_activate c env upstream s = r at hcases hheard htracks
  have hlook := wait_for_status_looks c env kActivationWait s
  cases hcases with
  | refused hu => exact ⟨fun h => absurd h hu, fun _ => Or.inl rfl⟩
  | silent hu hwait =>
    rw [hwait] at hlook
    exact ⟨fun h => (by cases h), fun _ => Or.inl hlook.bus⟩
  | @not_zeroed t v hu hwait hz =>
    rw [hwait] at hlook
    have hzero := zero_joints_spec c env (cleared t) (hlook.keeps.socket.trans hs)
    have hopen : v.socket = true := (activation_watches c env hwait hz).1.trans hs
    rw [hz] at hzero
    refine ⟨fun h => (by cases h), fun _ => Or.inr ?_⟩
    obtain ⟨first, hpre, hbus⟩ := hzero.bus
    obtain ⟨rounds, hstop⟩ := (stop_motors_spec c env v).frames hopen
    have hsame : (cleared t).bus = s.bus := hlook.bus
    exact ⟨first, rounds, hpre, by rw [hstop, hbus, hsame]⟩
  | @success t v hu hwait hz =>
    rw [hwait] at hlook
    have hzero := zero_joints_spec c env (cleared t) (hlook.keeps.socket.trans hs)
    rw [hz] at hzero
    obtain ⟨hbus, hpose⟩ := hzero.ok rfl
    have hsame : (cleared t).bus = s.bus := hlook.bus
    refine ⟨fun _ => ⟨hsame ▸ hbus, fun i hi => ?_, fun i hi => ?_⟩, fun h => absurd rfl h⟩
    · have hmem : i ∈ to_zero c (List.finRange n) :=
        List.mem_filter.mpr ⟨List.mem_finRange i, hi⟩
      obtain ⟨htime, hnear⟩ := hpose i hmem
      obtain ⟨h, hh⟩ := Option.isSome_iff_exists.mp
        ((htracks i).has_status.symm.trans (hheard rfl i))
      have hlast : (v.joints i).last_status = h.now := (htracks i).last_status h hh
      refine ⟨h, hh, ?_, hnear⟩
      rw [hwait, ← hlast]
      exact htime
    · exact if_pos hi

/-- In every run, an activation sends a release and a temporary origin to each joint that
it zeroes, in order, and nothing else before it succeeds. It succeeds only with a status
of every such joint from after its own origin and near zero, and with the targets of the
position-commanded joints where the joints are. Where it fails after a frame, the stop of
all motors follows. -/
theorem zeroing_on_activation {es : List (Event K n)} {m m' : Managed K n}
    {upstream : CallbackReturn} (hr : Run (next c env) {} es m)
    (hn : next c env m (.on_activate upstream) m') :
    Zeroed c env m.system (on_activate c env upstream m.system) := by
  obtain ⟨hi, hw⟩ := run_watch c env hr
  have hw' := next_watch c env hi hw hn
  obtain ⟨hlegal, rfl⟩ := hn
  exact on_activate_zeroed c env upstream (hi.opened (Or.inl hlegal)) hw'.tracks

/-- The joint of `gizmo`, zeroed by every activation. -/
def zeroing : Component ℚ 1 where
  joint i := { gizmo.joint i with zero_on_activate := true }
  status_timeout := 100
  brake_time := 60
  valid i :=
    { direction := (gizmo.valid i).direction
      gear_ratio := (gizmo.valid i).gear_ratio
      stall_effort := (gizmo.valid i).stall_effort
      max_velocity := (gizmo.valid i).max_velocity
      limits := (gizmo.valid i).limits }
  can_ids := fun _ _ _ => Subsingleton.elim _ _

/-- The first activation of that joint succeeds, after one release and one origin. -/
theorem zeroing_on_activation_gizmo :
    (on_activate zeroing (fault_at 9) .SUCCESS (configured 9).system).1 = .SUCCESS ∧
      Zeroed zeroing (fault_at 9) (configured 9).system
        (on_activate zeroing (fault_at 9) .SUCCESS (configured 9).system) := by
  have hrun : Run (next zeroing (fault_at 9)) {} [.on_configure true .SUCCESS] (configured 9) :=
    Run.single ⟨rfl, rfl⟩
  have hactivated : next zeroing (fault_at 9) (configured 9) (.on_activate .SUCCESS)
      (perform zeroing (fault_at 9) (configured 9) (.on_activate .SUCCESS)) := ⟨rfl, rfl⟩
  exact ⟨by decide +kernel, zeroing_on_activation zeroing (fault_at 9) hrun hactivated⟩

end IotRobot.Safe
