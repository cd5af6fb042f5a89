import IotRobot.Safe.StopInvariant

/-!
# The watchdog against the history of status frames

In every state of a run each joint's fields agree with the batches drained so far, and
every joint of an active component has been heard. A `read` of an active component is
therefore decided by that history and by the stall guard.
-/

namespace IotRobot.Safe

open Lib Can

set_option autoImplicit false

variable {K : Type} [Field K] [LinearOrder K] {n : Nat} (c : Component K n) (env : Env)

/-- Every joint has been heard. -/
def AllHeard (s : SafeSystem K n) : Prop := ∀ i, (s.joints i).has_status = true

theorem stop_motors_follows (s : SafeSystem K n) : Follows c env s (stop_motors c env s) := by
  have hstop := stop_motors_spec c env s
  refine Follows.of_same hstop.heard hstop.drains fun i => ?_
  rw [hstop.joints]
  exact ⟨rfl, rfl, rfl, rfl, rfl, rfl⟩

theorem stop_once_follows (s : SafeSystem K n) : Follows c env s (stop_once c env s) := by
  unfold stop_once
  dsimp only
  split
  · have h := stop_motors_follows c env { s with active := false }
    exact ⟨h.tracks, h.hears, h.supplied, h.drains⟩
  · exact Follows.of_same rfl rfl fun _ => SameStatus.refl _

theorem activation_follows {s t v : SafeSystem K n} {ok : Bool}
    (hw : wait_for_status c env kActivationWait s = (true, t))
    (hz : zero_joints c env (cleared t) = (ok, v)) : Follows c env s v ∧ Follows c env t v := by
  have h1 := wait_for_status_looks c env kActivationWait s
  have h2 := zero_joints_watches c env (cleared t)
  rw [hw] at h1
  rw [hz] at h2
  have hclear : Follows c env t (cleared t) :=
    Follows.of_same rfl rfl fun _ => ⟨rfl, rfl, rfl, rfl, rfl, rfl⟩
  have htv := hclear.trans h2.follows
  exact ⟨h1.follows.trans htv, htv⟩

theorem activated_follows (s : SafeSystem K n) : Follows c env s (activated c s) :=
  Follows.of_same rfl rfl fun _ => ⟨rfl, rfl, rfl, rfl, rfl, rfl⟩

/-- Every event keeps the joints in step with the history. -/
theorem step_follows (e : Event K n) (s : SafeSystem K n) :
    Follows c env s (step c env e s).2 := by
  have hsame : ∀ t : SafeSystem K n, t.heard = s.heard → t.drains = s.drains →
      t.joints = s.joints → Follows c env s t := fun t hh hd hj =>
    Follows.of_same hh hd fun i => by rw [hj]; exact SameStatus.refl _
  cases e with
  | on_configure opened upstream =>
    simp only [step, on_configure]
    split
    · exact hsame _ rfl rfl rfl
    · split <;> exact hsame _ rfl rfl rfl
  | on_cleanup upstream =>
    have h := stop_once_follows c env s
    exact ⟨h.tracks, h.hears, h.supplied, h.drains⟩
  | on_activate upstream =>
    change Follows c env s (on_activate c env upstream s).2
    have hcases := on_activate_cases c env upstream s
    generalize on_activate c env upstream s = r at hcases
    cases hcases with
    | refused hu => exact Follows.refl _
    | silent hu hw =>
      have hlook := wait_for_status_looks c env kActivationWait s
      rw [hw] at hlook
      exact hlook.follows
    | @not_zeroed t v hu hw hz =>
      exact (activation_follows c env hw hz).1.trans (stop_motors_follows c env v)
    | @success t v hu hw hz =>
      exact (activation_follows c env hw hz).1.trans (activated_follows c env v)
  | on_deactivate upstream =>
    have h := stop_motors_follows c env { s with active := false }
    exact ⟨h.tracks, h.hears, h.supplied, h.drains⟩
  | on_shutdown upstream =>
    have h := stop_once_follows c env s
    exact ⟨h.tracks, h.hears, h.supplied, h.drains⟩
  | on_error => exact stop_once_follows c env s
  | perform_command_mode_switch starts stops upstream =>
    have hs := switch_silent c env starts stops upstream s
    refine Follows.of_same hs.heard hs.drains fun i => ?_
    by_cases hu : upstream = .OK
    · subst hu
      exact (switch_joints c env starts stops s i).status
    · simp only [step, perform_command_mode_switch, ne_eq, hu, not_false_eq_true, ↓reduceIte]
      exact SameStatus.refl _
  | set_command j position velocity effort =>
    refine Follows.of_same rfl rfl fun i => ?_
    simp only [step, set_command]
    by_cases hij : i = j
    · subst hij
      rw [Function.update_self]
      exact ⟨rfl, rfl, rfl, rfl, rfl, rfl⟩
    · rw [Function.update_of_ne hij]
      exact SameStatus.refl _
  | read upstream base =>
    rcases read_cases c env upstream base s with ⟨t, hlook, _, he⟩ | ⟨t, hlook, he⟩
    · simp only [step, he]
      have h := stop_motors_follows c env { t with active := false }
      exact hlook.follows.trans ⟨h.tracks, h.hears, h.supplied, h.drains⟩
    · simp only [step, he]
      exact hlook.follows
  | write period upstream frames =>
    change Follows c env s (write c env period upstream frames s).2
    cases ha : s.active with
    | false => rw [write_inactive c env ha]; exact Follows.refl _
    | true =>
      have hw := write_active c env ha period upstream frames
      exact Follows.of_same hw.2.1.1 hw.2.1.2 fun i => (hw.2.2.2 i).status
  | destroy =>
    simp only [step, destroy]
    split
    · have h := stop_motors_follows c env s
      exact ⟨h.tracks, h.hears, h.supplied, h.drains⟩
    · exact hsame _ rfl rfl rfl

theorem recent_joints (i : Fin n) (s : SafeSystem K n) :
    (recent c env i s).2.joints = s.joints := by
  unfold recent
  split <;> rfl

theorem recent_heard {i : Fin n} {s : SafeSystem K n} (h : (recent c env i s).1 = true) :
    (s.joints i).has_status = true := by
  unfold recent at h
  split at h
  · assumption
  · cases h

/-- The status check only reads the joints; where it succeeds, every joint has been heard
and its last batch reported no fault. -/
theorem check_status_ok (l : List (Fin n)) (ok : Bool) (s : SafeSystem K n) :
    (check_status c env l ok s).2.joints = s.joints ∧
      ((check_status c env l ok s).1 = true → ok = true ∧
        ∀ i ∈ l, (s.joints i).has_status = true ∧ (s.joints i).fault = 0) := by
  induction l generalizing ok s with
  | nil => exact ⟨rfl, fun h => ⟨h, fun i hi => absurd hi List.not_mem_nil⟩⟩
  | cons i l ih =>
    have hj := recent_joints c env i s
    have hheard := recent_heard c env (i := i) (s := s)
    rw [check_status]
    rcases hrec : recent c env i s with ⟨r, u⟩
    rw [hrec] at hj hheard
    change u.joints = s.joints at hj
    obtain ⟨hjoints, hok⟩ := ih (ok && r && (u.joints i).fault == 0) u
    refine ⟨hjoints.trans hj, fun h => ?_⟩
    obtain ⟨hand, hall⟩ := hok h
    rw [hj] at hand hall
    simp only [Bool.and_eq_true, beq_iff_eq] at hand
    refine ⟨hand.1.1, fun j hmem => ?_⟩
    rcases List.mem_cons.mp hmem with rfl | hmem
    · exact ⟨hheard hand.1.2, hand.2⟩
    · exact hall j hmem

/-- After a successful wait every joint has been heard and none reports a fault. -/
theorem wait_for_status_ok {timeout : Nat} {s t : SafeSystem K n}
    (h : wait_for_status c env timeout s = (true, t)) :
    AllHeard t ∧ ∀ i, (t.joints i).fault = 0 := by
  unfold wait_for_status at h
  simp only [now] at h
  split at h
  · rename_i u _
    have hcheck := check_status_ok c env (List.finRange n) true u
    rw [h] at hcheck
    obtain ⟨hjoints, hok⟩ := hcheck
    have hall := (hok rfl).2
    simp only at hjoints
    rw [AllHeard, hjoints]
    exact ⟨fun i => (hall i (List.mem_finRange i)).1, fun i => (hall i (List.mem_finRange i)).2⟩
  · cases h
  · cases h

/-- What holds between the events of a run: the history, and that an active component
has heard every joint. -/
structure WatchInv (s : SafeSystem K n) : Prop where
  tracks : Tracks c s
  supplied : Supplied env s
  heard : s.active = true → AllHeard s

theorem WatchInv.start : WatchInv c env {} := ⟨Tracks.start c, rfl, fun h => by cases h⟩

/-- A destruction never makes a component active. -/
theorem destroy_active (s : SafeSystem K n) : (destroy c env s).active = s.active := by
  unfold destroy
  split
  · exact (stop_motors_spec c env s).active
  · rfl

theorem activated_heard {upstream : CallbackReturn} {s : SafeSystem K n}
    (h : (on_activate c env upstream s).1 = .SUCCESS) :
    AllHeard (on_activate c env upstream s).2 := by
  have hcases := on_activate_cases c env upstream s
  generalize on_activate c env upstream s = r at hcases h
  cases hcases with
  | refused hu => exact absurd h hu
  | silent hu hw => cases h
  | not_zeroed hu hw hz => cases h
  | @success t v hu hw hz =>
    have hheard := (wait_for_status_ok c env hw).1
    have hf := (activation_follows c env hw hz).2.trans (activated_follows c env v)
    exact fun i => hf.hears i (hheard i)

theorem next_watch {m m' : Managed K n} {e : Event K n} (hi : StopInv m)
    (hw : WatchInv c env m.system) (hn : next c env m e m') : WatchInv c env m'.system := by
  obtain ⟨hl, rfl⟩ := hn
  have hf := step_follows c env e m.system
  refine ⟨hf.tracks hw.tracks, hf.supplied hw.supplied, fun ha => ?_⟩
  by_cases hactive : m.system.active = true
  · exact fun i => hf.hears i (hw.heard hactive i)
  · by_cases hd : e = .destroy
    · subst hd
      exact absurd ((destroy_active c env m.system).symm.trans ha) hactive
    · cases step_change c env hi e hl hd with
      | keeps hk _ _ => exact absurd (hk.symm.trans ha) hactive
      | stops hs _ => exact absurd (hs.symm.trans ha) (by decide)
      | starts hact _ _ _ =>
        obtain ⟨upstream, rfl, hs⟩ := hact
        exact activated_heard c env (Result.callback.inj hs)

theorem run_watch {es : List (Event K n)} {m : Managed K n} (hr : Run (next c env) {} es m) :
    StopInv m ∧ WatchInv c env m.system := by
  refine hr.invariant (fun m => StopInv m ∧ WatchInv c env m.system)
    ⟨StopInv.start, WatchInv.start c env⟩ ?_
  rintro a b e ⟨hi, hw⟩ hn
  exact ⟨next_inv c env hi hn, next_watch c env hi hw hn⟩

/-- The joint was heard within `timeout` whole milliseconds before `t`. -/
def Recent (p : JointParams K) (timeout t : Nat) (heard : List Heard) : Prop :=
  ∃ h, last_heard p heard = some h ∧ (t - h.now) / nsPerMs ≤ timeout

/-- The stall guard trips on the joint at `t`: it has pushed beyond its limit for the
whole of `stall_time`. -/
def Stalled (p : JointParams K) (t : Nat) (j : Joint K) : Prop :=
  0 < p.stall_effort ∧ j.has_status = true ∧ p.stall_effort < effort p j ∧
    j.over_effort = true ∧ p.stall_time ≤ (t - j.over_effort_since) / nsPerMs

theorem check_effort_none (t : Nat) (p : JointParams K) (j : Joint K) :
    check_effort t p j = none ↔ Stalled p t j := by
  unfold check_effort Stalled
  by_cases hoff : p.stall_effort ≤ 0 ∨ j.has_status = false
  · rw [if_pos hoff]
    refine ⟨fun h => (by cases h), ?_⟩
    rintro ⟨hpos, hheard, _⟩
    rcases hoff with hoff | hoff
    · exact absurd hpos (not_lt.mpr hoff)
    · exact absurd (hheard.symm.trans hoff) (by decide)
  · obtain ⟨hpos, hheard⟩ := not_or.mp hoff
    rw [if_neg hoff]
    by_cases hlow : effort p j ≤ p.stall_effort
    · rw [if_pos hlow]
      exact ⟨fun h => (by cases h), fun h => absurd h.2.2.1 (not_lt.mpr hlow)⟩
    · rw [if_neg hlow]
      by_cases hover : j.over_effort = false
      · rw [if_pos hover]
        exact ⟨fun h => (by cases h), fun h => absurd (h.2.2.2.1.symm.trans hover) (by decide)⟩
      · rw [if_neg hover]
        by_cases hheld : (t - j.over_effort_since) / nsPerMs ≥ p.stall_time
        · rw [if_pos hheld]
          exact ⟨fun _ => ⟨not_le.mp hpos, Bool.eq_true_of_not_eq_false hheard, not_le.mp hlow,
            Bool.eq_true_of_not_eq_false hover, hheld⟩, fun _ => rfl⟩
        · rw [if_neg hheld]
          exact ⟨fun h => (by cases h), fun h => absurd h.2.2.2.2 hheld⟩

/-- The stall guard passes when it trips on no joint, each looked at once. -/
theorem check_efforts_ok (t : Nat) (l : List (Fin n)) (hl : l.Nodup) (joints : Fin n → Joint K) :
    (check_efforts c t l joints).1 = true ↔ ∀ i ∈ l, ¬ Stalled (c.joint i) t (joints i) := by
  induction l generalizing joints with
  | nil => simp [check_efforts]
  | cons i l ih =>
    obtain ⟨hi, hnodup⟩ := List.nodup_cons.mp hl
    have hnone := check_effort_none t (c.joint i) (joints i)
    rw [check_efforts, List.forall_mem_cons]
    cases hc : check_effort t (c.joint i) (joints i) with
    | none =>
      rw [hc] at hnone
      simp [hnone.mp rfl]
    | some joint =>
      rw [hc] at hnone
      have hcalm : ¬ Stalled (c.joint i) t (joints i) := fun h => by cases hnone.mpr h
      rw [ih hnodup]
      refine ⟨fun h => ⟨hcalm, fun j hj => ?_⟩, fun h j hj => ?_⟩
      · have hne : j ≠ i := fun he => hi (he ▸ hj)
        rw [← Function.update_of_ne hne joint joints]
        exact h j hj
      · have hne : j ≠ i := fun he => hi (he ▸ hj)
        rw [Function.update_of_ne hne]
        exact h.2 j hj

/-- What the watchdog and the stall guard look at after a drain. -/
def Healthy (s : SafeSystem K n) : Prop :=
  (∀ i, ((drained c env s).joints i).fault = 0 ∧
    (env.clock.reading (s.readings + 1) - ((drained c env s).joints i).last_status) / nsPerMs ≤
      c.status_timeout) ∧
  ∀ i, ¬ Stalled (c.joint i) (env.clock.reading (s.readings + 2)) ((drained c env s).joints i)

theorem motors_healthy_active {s : SafeSystem K n} (hs : s.socket = true)
    (ha : s.active = true) (hb : (env.batch s.drains).failed = false) :
    (motors_healthy c env s).2 = (now env (drained c env s)).2 ∧
      ((motors_healthy c env s).1 = true ↔ ∀ i, ((drained c env s).joints i).fault = 0 ∧
        (env.clock.reading (s.readings + 1) - ((drained c env s).joints i).last_status) /
          nsPerMs ≤ c.status_timeout) := by
  have hda : (drained c env s).active = true := ha
  unfold motors_healthy
  rw [if_neg (by rw [hs]; decide), drain_status_open c env hs, hb]
  simp only [Bool.false_and, Bool.not_false, Bool.true_eq_false, ↓reduceIte, hda, now, true_and,
    List.all_eq_true, List.mem_finRange, true_implies, Bool.and_eq_true, beq_iff_eq,
    Bool.not_eq_true', decide_eq_false_iff_not, not_lt]
  rfl

/-- A `read` of an active component with a readable socket. -/
theorem read_active {s : SafeSystem K n} (hs : s.socket = true) (ha : s.active = true)
    (hb : (env.batch s.drains).failed = false) (base : Fin n → Interface → Dbl K) :
    ∃ u, Looks c env s u ∧ u.heard = (drained c env s).heard ∧
      (Healthy c env s → read c env .OK base s = (.OK, u)) ∧
      (¬ Healthy c env s →
        read c env .OK base s = (.ERROR, stop_motors c env { u with active := false })) := by
  obtain ⟨hstate, hwatch⟩ := motors_healthy_active c env hs ha hb
  have hlook := (motors_healthy_looks c env s).trans
    (export_states_looks c env base (motors_healthy c env s).2)
  rcases hmh : motors_healthy c env s with ⟨healthy, t⟩
  rw [hmh] at hstate hwatch hlook
  obtain rfl : t = (now env (drained c env s)).2 := hstate
  let e := export_states c base (now env (drained c env s)).2
  have hea : e.active = true := ha
  have hefforts := efforts_ok_looks c env e
  have hcalm : (efforts_ok c env e).1 = true ↔ ∀ i, ¬ Stalled (c.joint i)
      (env.clock.reading (s.readings + 2)) ((drained c env s).joints i) := by
    refine (check_efforts_ok c _ (List.finRange n) (List.nodup_finRange n) e.joints).trans ?_
    exact ⟨fun h i => h i (List.mem_finRange i), fun h i _ => h i⟩
  cases healthy with
  | false =>
    refine ⟨e, hlook, rfl, fun h => ?_, fun _ => ?_⟩
    · exact Bool.noConfusion (hwatch.mpr h.1)
    · rw [read, hmh]
      rfl
  | true =>
    rcases hok : efforts_ok c env e with ⟨ok, v⟩
    rw [hok] at hefforts hcalm
    change ok = true ↔ _ at hcalm
    have hread : read c env .OK base s = if ok = false then
        (.ERROR, stop_motors c env { v with active := false }) else (.OK, v) := by
      rw [read, hmh]
      change (if e.active = false then (ReturnType.OK, e) else if (efforts_ok c env e).1 = false then
        (.ERROR, stop_motors c env { (efforts_ok c env e).2 with active := false })
        else (.OK, (efforts_ok c env e).2)) = _
      rw [hea, if_neg (by decide), hok]
    have hheard : v.heard = (drained c env s).heard := by
      have h := congrArg (fun r => r.2.heard) hok
      exact h.symm
    refine ⟨v, hlook.trans hefforts, hheard, fun h => ?_, fun h => ?_⟩
    · rw [hread, if_neg (by rw [hcalm.mpr h.2]; decide)]
    · rw [hread, if_pos (Bool.eq_false_of_not_eq_true fun hv =>
        h ⟨hwatch.mp rfl, hcalm.mp hv⟩)]

/-- Per joint, what the watchdog looks at is what the history says. -/
theorem healthy_iff {s : SafeSystem K n} (hw : WatchInv c env s) (ha : s.active = true) :
    let heard := (drained c env s).heard
    Healthy c env s ↔
      (∀ i, Clean (c.joint i) heard ∧
        Recent (c.joint i) c.status_timeout (env.clock.reading (s.readings + 1)) heard) ∧
      ∀ i, ¬ Stalled (c.joint i) (env.clock.reading (s.readings + 2))
        ((drained c env s).joints i) := by
  intro heard
  have htracks := (drained_follows c env s).tracks hw.tracks
  have hheard : AllHeard (drained c env s) := fun i =>
    (drained_follows c env s).hears i (hw.heard ha i)
  refine and_congr_left fun _ => forall_congr' fun i => ?_
  have hi := htracks i
  obtain ⟨h, hh⟩ := Option.isSome_iff_exists.mp (hi.has_status.symm.trans (hheard i))
  have hlast := hi.last_status h hh
  refine and_congr (hi.clean (hheard i)) ⟨fun htime => ⟨h, hh, hlast ▸ htime⟩, ?_⟩
  rintro ⟨b, hb, htime⟩
  obtain rfl := Option.some.inj (hh.symm.trans hb)
  exact hlast ▸ htime

/-- Watchdog exactness. In every run, a `read` of an active component whose upstream part
succeeds and whose socket is readable returns OK and leaves it active exactly when every
joint is clean, recent and not stalled; otherwise it stops the motors and fails. -/
theorem watchdog_exact {es : List (Event K n)} {m m' : Managed K n}
    (hr : Run (next c env) {} es m) (base : Fin n → Interface → Dbl K)
    (hn : next c env m (.read .OK base) m') (ha : m.system.active = true)
    (hb : (env.batch m.system.drains).failed = false) :
    let result := (step c env (.read .OK base) m.system).1
    let heard := m'.system.heard
    let healthy :=
      (∀ i, Clean (c.joint i) heard ∧ Recent (c.joint i) c.status_timeout
        (env.clock.reading (m.system.readings + 1)) heard) ∧
      ∀ i, ¬ Stalled (c.joint i) (env.clock.reading (m.system.readings + 2))
        ((drain_status c env m.system).2.joints i)
    (result = .real_time .OK ∧ m'.system.active = true ↔ healthy) ∧
    (¬ healthy → result = .real_time .ERROR ∧ m'.system.active = false ∧
      Stops c m.system m'.system) := by
  obtain ⟨hi, hw⟩ := run_watch c env hr
  obtain ⟨hl, rfl⟩ := hn
  have hs := hi.wired hl ha
  obtain ⟨u, hlook, hheard, hok, hbad⟩ := read_active c env hs ha hb base
  have hiff := healthy_iff c env hw ha
  intro result heard healthy
  have hdrain : (drain_status c env m.system).2 = drained c env m.system := by
    rw [drain_status_open c env hs]
  by_cases hh : Healthy c env m.system
  · have he : step c env (.read .OK base) m.system = (.real_time .OK, u) := by
      simp only [step, hok hh]
    have hheard' : heard = (drained c env m.system).heard := by
      simp only [heard, perform, he, hheard]
    have hhealthy : healthy := by
      simp only [healthy, hheard', hdrain]
      exact hiff.mp hh
    have hactive : (perform c env m (.read .OK base)).system.active = true := by
      simp only [perform, he]
      exact hlook.keeps.active.trans ha
    exact ⟨⟨fun _ => hhealthy, fun _ => ⟨congrArg Prod.fst he, hactive⟩⟩,
      fun hn => absurd hhealthy hn⟩
  · have he : step c env (.read .OK base) m.system =
        (.real_time .ERROR, stop_motors c env { u with active := false }) := by
      simp only [step, hbad hh]
    have hstop := stop_motors_spec c env { u with active := false }
    have hheard' : heard = (drained c env m.system).heard := by
      simp only [heard, perform, he]
      exact hstop.heard.trans hheard
    have hsick : ¬ healthy := by
      simp only [healthy, hheard', hdrain]
      exact fun h => hh (hiff.mpr h)
    have hinactive : (perform c env m (.read .OK base)).system.active = false := by
      simp only [perform, he]
      exact hstop.active
    have hstops : Stops c m.system (perform c env m (.read .OK base)).system := by
      simp only [perform, he]
      exact stop_motors_stops (hlook.watches.sends.trans (Sends.of_bus_eq rfl))
        (hlook.keeps.socket.trans hs)
    refine ⟨⟨fun h => ?_, fun h => absurd h hsick⟩,
      fun _ => ⟨congrArg Prod.fst he, hinactive, hstops⟩⟩
    exact absurd (hinactive.symm.trans h.2) (by decide)

/-- A `read` right after the start, without a fault so far: the history is clean. -/
theorem watchdog_exact_gizmo :
    Clean (gizmo.joint 0)
      (perform gizmo (fault_at 9) (started_up 9) (.read .OK fun _ _ => .nan)).system.heard := by
  have hl : (started_up 9).lifecycle ≠ .destroyed := by decide +kernel
  have hexact := watchdog_exact gizmo (fault_at 9) (started_up_run 9) (fun _ _ => .nan)
    ⟨hl, rfl⟩ (by decide +kernel) rfl
  exact ((hexact.1.mp (by decide +kernel)).1 0).1

end IotRobot.Safe
