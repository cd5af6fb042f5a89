import IotRobot.Lib.Traces
import IotRobot.Safe.Zeroing

/-!
# The stall guard against the whole history of an activation

The guard keeps two members a joint: whether the last look found it over its limit, and
when that began. They mirror the streak of such looks at the end of the history since the
activation, so the guard stops the component exactly when a streak has lasted long enough.
-/

namespace IotRobot.Safe

open Lib Can

set_option autoImplicit false

section Unguarded
variable {K : Type}

/-- The members of the stall guard are as they were. -/
structure SameGuard (j j' : Joint K) : Prop where
  over_effort : j'.over_effort = j.over_effort
  over_effort_since : j'.over_effort_since = j.over_effort_since

theorem SameGuard.refl (j : Joint K) : SameGuard j j := ⟨rfl, rfl⟩

theorem SameGuard.trans {j k l : Joint K} (h : SameGuard j k) (g : SameGuard k l) :
    SameGuard j l :=
  ⟨g.over_effort.trans h.over_effort, g.over_effort_since.trans h.over_effort_since⟩

theorem OnlyHears.guard {j j' : Joint K} (h : OnlyHears j j') : SameGuard j j' := by
  rw [h]
  exact ⟨rfl, rfl⟩

/-- Time may have passed; the stall guard has not looked. -/
structure Unguarded {n : Nat} (s s' : SafeSystem K n) : Prop where
  readings : s.readings ≤ s'.readings
  joints : ∀ i, SameGuard (s.joints i) (s'.joints i)

theorem Unguarded.refl {n : Nat} (s : SafeSystem K n) : Unguarded s s :=
  ⟨le_rfl, fun _ => SameGuard.refl _⟩

theorem Unguarded.trans {n : Nat} {s t u : SafeSystem K n} (h : Unguarded s t)
    (g : Unguarded t u) : Unguarded s u :=
  ⟨h.readings.trans g.readings, fun i => (h.joints i).trans (g.joints i)⟩

/-- One joint has a new value, which differs outside the guard. -/
theorem SameGuard.update {n : Nat} {joints : Fin n → Joint K} {i : Fin n} {joint : Joint K}
    (h : SameGuard (joints i) joint) (j : Fin n) :
    SameGuard (joints j) (Function.update joints i joint j) := by
  by_cases hji : j = i
  · subst hji
    rwa [Function.update_self]
  · rw [Function.update_of_ne hji]
    exact SameGuard.refl _

end Unguarded

variable {K : Type} [Field K] [LinearOrder K] {n : Nat} (c : Component K n) (env : Env)

omit [LinearOrder K] in
theorem switched_guard (p : JointParams K) (claims starts stops active : Bool)
    (release_at : Nat) (joint : Joint K) :
    SameGuard joint (joint.switched p claims starts stops active release_at) := by
  cases starts <;> cases stops <;> cases active <;> exact ⟨rfl, rfl⟩

theorem switch_unguarded (starts stops : List String) (upstream : ReturnType)
    (s : SafeSystem K n) :
    Unguarded s (perform_command_mode_switch c env starts stops upstream s).2 := by
  unfold perform_command_mode_switch
  split
  · exact Unguarded.refl s
  · refine sweep_relates _ Unguarded Unguarded.refl (fun _ _ _ => Unguarded.trans) ?_ _ s
    intro t i
    rw [switch_joint_eq]
    refine ⟨?_, SameGuard.update (switched_guard (c.joint i) _ _ _ _ _ (t.joints i))⟩
    show t.readings ≤ if _ then t.readings + 1 else t.readings
    split
    · exact Nat.le_succ _
    · exact le_rfl

theorem write_unguarded (period : K) (upstream : ReturnType) (frames : List CanFrame)
    (s : SafeSystem K n) : Unguarded s (write c env period upstream frames s).2 := by
  unfold write
  split
  · exact Unguarded.refl s
  · have hbody : ∀ (t : Nat) (u : SafeSystem K n) (i : Fin n),
        Unguarded u (write_joint c env (slew_period period) t u i) := by
      intro t u i
      rw [write_joint_eq]
      have hwritten : SameGuard (u.joints i)
        ((u.joints i).written (c.joint i) (slew_period period) t) := ⟨rfl, rfl⟩
      exact ⟨le_rfl, hwritten.update⟩
    have hnow : Unguarded s (now env s).2 := ⟨Nat.le_succ _, fun _ => SameGuard.refl _⟩
    have hall := hnow.trans (sweep_relates (write_joint c env (slew_period period) (now env s).1)
      Unguarded Unguarded.refl (fun _ _ _ => Unguarded.trans) (hbody _) (List.finRange n)
      (now env s).2)
    exact ⟨hall.readings, hall.joints⟩

omit [Field K] [LinearOrder K] in
theorem set_command_unguarded (i : Fin n) (position velocity effort : Dbl K)
    (s : SafeSystem K n) : Unguarded s (set_command i position velocity effort s) := by
  have hset : SameGuard (s.joints i) { s.joints i with
      command_position := position
      command_velocity := velocity
      command_effort := effort } := ⟨rfl, rfl⟩
  exact ⟨le_rfl, hset.update⟩

/-- What the stall guard sees in one `read`: its own clock reading and the efforts. -/
structure Look (K : Type) (n : Nat) where
  time : Nat
  effort : Fin n → K

/-- `read` has looked at the clock twice, for the drain and for the watchdog. -/
def look (s : SafeSystem K n) : Look K n :=
  ⟨env.clock.reading (s.readings + 2),
    fun i => effort (c.joint i) ((drain_status c env s).2.joints i)⟩

theorem motors_healthy_true {s : SafeSystem K n} (ha : s.active = true)
    (hh : (motors_healthy c env s).1 = true) :
    s.socket = true ∧ motors_healthy c env s = (true, (now env (drained c env s)).2) := by
  have hs : s.socket = true := by
    by_contra hclosed
    rw [motors_healthy, if_pos (Bool.eq_false_of_not_eq_true hclosed), ha] at hh
    cases hh
  have hda : (drained c env s).active = true := ha
  refine ⟨hs, ?_⟩
  rw [motors_healthy, if_neg (by rw [hs]; decide), drain_status_open c env hs] at hh ⊢
  simp only [hda, Bool.true_eq_false, ↓reduceIte] at hh ⊢
  by_cases hd : (!((env.batch s.drains).failed && s.active)) = false
  · rw [if_pos hd] at hh
    cases hh
  · rw [if_neg hd] at hh ⊢
    exact Prod.ext hh rfl

/-- Where the guard does not trip, every joint gets what its check returns. -/
theorem check_efforts_each (t : Nat) (l : List (Fin n)) (hl : l.Nodup) (joints : Fin n → Joint K)
    (hok : (check_efforts c t l joints).1 = true) :
    (∀ i ∈ l, check_effort t (c.joint i) (joints i) = some ((check_efforts c t l joints).2 i)) ∧
      ∀ i, i ∉ l → (check_efforts c t l joints).2 i = joints i := by
  induction l generalizing joints with
  | nil => exact ⟨fun i hi => absurd hi List.not_mem_nil, fun _ _ => rfl⟩
  | cons i l ih =>
    obtain ⟨hi, hnodup⟩ := List.nodup_cons.mp hl
    rw [check_efforts] at hok ⊢
    cases hc : check_effort t (c.joint i) (joints i) with
    | none =>
      rw [hc] at hok
      cases hok
    | some joint =>
      rw [hc] at hok
      obtain ⟨heach, hother⟩ := ih hnodup (Function.update joints i joint) hok
      refine ⟨fun j hj => ?_, fun j hj => ?_⟩
      · by_cases hji : j = i
        · subst hji
          simp only
          rw [hc, hother j hi, Function.update_self]
        · have h := heach j ((List.mem_cons.mp hj).resolve_left hji)
          rwa [Function.update_of_ne hji] at h
      · obtain ⟨hji, hnot⟩ := not_or.mp (List.mem_cons.not.mp hj)
        exact (hother j hnot).trans (Function.update_of_ne hji _ _)

/-- A `read` of healthy motors: it stops them when the guard trips on a joint, and otherwise
the guard has looked at every joint. -/
structure Guarded (upstream : ReturnType) (base : Fin n → Interface → Dbl K)
    (s : SafeSystem K n) : Prop where
  calm : (∀ i, ¬ Stalled (c.joint i) (look c env s).time ((drained c env s).joints i)) →
    (read c env upstream base s).2.active = true ∧
    (read c env upstream base s).2.readings = s.readings + 3 ∧
    ∀ i, ∃ joint, SameGuard ((drained c env s).joints i) joint ∧
      SameStatus ((drained c env s).joints i) joint ∧
      check_effort (look c env s).time (c.joint i) joint =
        some ((read c env upstream base s).2.joints i)
  trips : ¬ (∀ i, ¬ Stalled (c.joint i) (look c env s).time ((drained c env s).joints i)) →
    (read c env upstream base s).1 = .ERROR ∧ (read c env upstream base s).2.active = false

theorem read_guarded {s : SafeSystem K n} (ha : s.active = true)
    (hh : (motors_healthy c env s).1 = true) (upstream : ReturnType)
    (base : Fin n → Interface → Dbl K) : Guarded c env upstream base s := by
  obtain ⟨-, hmotors⟩ := motors_healthy_true c env ha hh
  let e := export_states c base (now env (drained c env s)).2
  have hea : e.active = true := ha
  have htime : env.clock.reading e.readings = (look c env s).time := rfl
  have hread : read c env upstream base s =
      if (efforts_ok c env e).1 = false then
        (.ERROR, stop_motors c env { (efforts_ok c env e).2 with active := false })
      else (upstream, (efforts_ok c env e).2) := by
    rw [read, hmotors]
    show (if e.active = false then _ else _) = _
    rw [if_neg (by rw [hea]; decide)]
    rfl
  have hcalm : (efforts_ok c env e).1 = true ↔ ∀ i, ¬ Stalled (c.joint i) (look c env s).time
      ((drained c env s).joints i) := by
    refine (check_efforts_ok c _ (List.finRange n) (List.nodup_finRange n) e.joints).trans ?_
    exact ⟨fun h i => h i (List.mem_finRange i), fun h i _ => h i⟩
  constructor
  · intro h
    have hok := hcalm.mpr h
    rw [hread, if_neg (by rw [hok]; decide)]
    refine ⟨hea, rfl, fun i => ⟨e.joints i, ⟨rfl, rfl⟩, ⟨rfl, rfl, rfl, rfl, rfl, rfl⟩, ?_⟩⟩
    exact (check_efforts_each c _ (List.finRange n) (List.nodup_finRange n) e.joints hok).1 i
      (List.mem_finRange i)
  · intro h
    rw [hread, if_pos (Bool.eq_false_of_not_eq_true fun hok => h (hcalm.mp hok))]
    exact ⟨rfl, (stop_motors_spec c env _).active⟩

/-- What the guard sees in one event. -/
def looks_of (s : SafeSystem K n) : Event K n → List (Look K n)
  | .read _ _ => [look c env s]
  | _ => []

/-- What the guard sees in the events of a run from `m`. -/
def looks (m : Managed K n) : List (Event K n) → List (Look K n)
  | [] => []
  | e :: es => looks_of c env m.system e ++ looks (perform c env m e) es

theorem looks_snoc {m m' : Managed K n} {es : List (Event K n)}
    (hr : Run (next_active c env) m es m') (e : Event K n) :
    looks c env m (es ++ [e]) = looks c env m es ++ looks_of c env m'.system e :=
  hr.history_snoc (f := perform c env) (g := fun m => looks_of c env m.system) (fun _ => rfl)
    (fun _ _ _ => rfl) (fun _ _ _ hn => hn.1.2) e

/-- The joint is over its limit in this look. -/
def over_limit (i : Fin n) (x : Look K n) : Bool := decide ((c.joint i).stall_effort < x.effort i)

/-- The members of the guard mirror the streaks at the end of the history. -/
structure Mirrors (l : List (Look K n)) (s : SafeSystem K n) : Prop where
  past : ∀ x ∈ l, x.time ≤ env.clock.reading s.readings
  ordered : l.Pairwise fun a b => a.time ≤ b.time
  latch : ∀ i, 0 < (c.joint i).stall_effort →
    (s.joints i).over_effort = !(l.rtakeWhile (over_limit c i)).isEmpty
  since : ∀ i, 0 < (c.joint i).stall_effort →
    ∀ first, (l.rtakeWhile (over_limit c i)).head? = some first →
      (s.joints i).over_effort_since = first.time

theorem Mirrors.unguarded {l : List (Look K n)} {s s' : SafeSystem K n} (h : Mirrors c env l s)
    (hu : Unguarded s s') : Mirrors c env l s' :=
  ⟨fun x hx => (h.past x hx).trans (env.clock.mono hu.readings), h.ordered,
    fun i hi => (hu.joints i).over_effort.trans (h.latch i hi),
    fun i hi first hf => (hu.joints i).over_effort_since.trans (h.since i hi first hf)⟩

/-- What a check that does not trip does to the members of the guard. -/
theorem check_effort_guard {t : Nat} {p : JointParams K} {j j' : Joint K}
    (hc : check_effort t p j = some j') (hp : 0 < p.stall_effort) (hs : j.has_status = true) :
    (j'.over_effort = decide (p.stall_effort < effort p j)) ∧
      (p.stall_effort < effort p j →
        j'.over_effort_since = if j.over_effort then j.over_effort_since else t) := by
  unfold check_effort at hc
  rw [if_neg (not_or.mpr ⟨not_le.mpr hp, by rw [hs]; decide⟩)] at hc
  by_cases hlow : effort p j ≤ p.stall_effort
  · rw [if_pos hlow] at hc
    obtain rfl := Option.some.inj hc
    exact ⟨(decide_eq_false (not_lt.mpr hlow)).symm, fun h => absurd h (not_lt.mpr hlow)⟩
  · rw [if_neg hlow] at hc
    have hhigh := decide_eq_true (not_le.mp hlow)
    by_cases hover : j.over_effort = false
    · rw [if_pos hover] at hc
      obtain rfl := Option.some.inj hc
      exact ⟨hhigh.symm, fun _ => by rw [hover]; rfl⟩
    · rw [if_neg hover] at hc
      split at hc
      · cases hc
      · obtain rfl := Option.some.inj hc
        have hover := Bool.eq_true_of_not_eq_false hover
        exact ⟨hover.trans hhigh.symm, fun _ => by rw [hover]; rfl⟩

/-- A look at every joint carries the mirror on. -/
theorem Mirrors.looked {l : List (Look K n)} {s s' : SafeSystem K n} (h : Mirrors c env l s)
    (hheard : AllHeard (drained c env s)) (hs : s.socket = true)
    (hr : s'.readings = s.readings + 3)
    (hj : ∀ i, ∃ joint, SameGuard ((drained c env s).joints i) joint ∧
      SameStatus ((drained c env s).joints i) joint ∧
      check_effort (look c env s).time (c.joint i) joint = some (s'.joints i)) :
    Mirrors c env (l ++ [look c env s]) s' := by
  have hpast : ∀ x ∈ l, x.time ≤ (look c env s).time := fun x hx =>
    (h.past x hx).trans (env.clock.mono (by omega))
  have heffort : ∀ i joint, SameStatus ((drained c env s).joints i) joint →
      effort (c.joint i) joint = (look c env s).effort i := by
    intro i joint hst
    simp only [look, drain_status_open c env hs, effort, hst.raw_current]
  refine ⟨fun x hx => ?_, ?_, fun i hi => ?_, fun i hi first hf => ?_⟩
  · rw [hr]
    rcases List.mem_append.mp hx with hx | hx
    · exact (h.past x hx).trans (env.clock.mono (by omega))
    · rw [List.mem_singleton.mp hx]
      exact env.clock.mono (by omega)
  · refine List.pairwise_append.mpr ⟨h.ordered, List.pairwise_singleton _ _, fun a ha b hb => ?_⟩
    rw [List.mem_singleton.mp hb]
    exact hpast a ha
  all_goals
    obtain ⟨joint, hguard, hst, hc⟩ := hj i
    obtain ⟨hlatch, hsince⟩ := check_effort_guard hc hi (hst.has_status.trans (hheard i))
    rw [heffort i joint hst] at hlatch hsince
    have hdrained := (drained_only c env s i).guard.trans hguard
  · rw [hlatch, List.rtakeWhile_concat]
    by_cases hover : over_limit c i (look c env s) = true
    · rw [if_pos hover, List.isEmpty_eq_false_iff.mpr (by simp)]
      exact hover
    · rw [if_neg hover]
      exact Bool.eq_false_of_not_eq_true hover
  · rw [List.rtakeWhile_concat] at hf
    by_cases hover : over_limit c i (look c env s) = true
    · rw [if_pos hover] at hf
      rw [hsince (of_decide_eq_true hover), hdrained.over_effort, h.latch i hi]
      cases hstreak : l.rtakeWhile (over_limit c i) with
      | nil =>
        rw [hstreak] at hf
        obtain rfl := Option.some.inj hf
        rfl
      | cons y rest =>
        rw [hstreak] at hf
        obtain rfl := Option.some.inj hf
        show joint.over_effort_since = _
        rw [hdrained.over_effort_since]
        exact h.since i hi y (by rw [hstreak]; rfl)
    · rw [if_neg hover] at hf
      cases hf

/-- A successful activation forgets what the guard had seen. -/
theorem activated_mirrors {upstream : CallbackReturn} {s : SafeSystem K n}
    (hs : s.socket = true) (h : (on_activate c env upstream s).1 = .SUCCESS) :
    Mirrors c env [] (on_activate c env upstream s).2 := by
  have hcases := on_activate_cases c env upstream s
  generalize on_activate c env upstream s = r at hcases h
  cases hcases with
  | refused hu => exact absurd h hu
  | silent hu hwait => cases h
  | not_zeroed hu hwait hz => cases h
  | @success t v hu hwait hz =>
    have hlook := wait_for_status_looks c env kActivationWait s
    rw [hwait] at hlook
    have hzero := (zero_joints_spec c env (cleared t) (hlook.keeps.socket.trans hs)).only
    rw [hz] at hzero
    have hforgot : ∀ i, (v.joints i).over_effort = false := fun i => (hzero i).guard.over_effort
    exact ⟨fun x hx => absurd hx List.not_mem_nil, List.Pairwise.nil, fun i _ => hforgot i,
      fun i _ first hf => by cases hf⟩

/-- An event that leaves the component active is a look at healthy motors, or it does not
touch the guard. -/
theorem active_step {m m' : Managed K n} {e : Event K n} (hi : StopInv m)
    (ha : m.system.active = true) (hn : next_active c env m e m') :
    (∃ upstream base, e = .read upstream base ∧ (motors_healthy c env m.system).1 = true) ∨
      looks_of c env m.system e = [] ∧ Unguarded m.system m'.system := by
  rcases active_event c env hi ha hn with ⟨upstream, base, rfl⟩ | ⟨starts, stops, upstream, rfl⟩ |
    ⟨i, position, velocity, effort, rfl⟩ | ⟨period, upstream, frames, rfl⟩
  all_goals obtain ⟨⟨-, rfl⟩, ha', -⟩ := hn
  · refine Or.inl ⟨upstream, base, rfl, ?_⟩
    by_contra hsick
    refine absurd (ha'.symm.trans ?_) (by decide : ¬ true = false)
    simp only [perform, step, read, Bool.eq_false_of_not_eq_true hsick, ↓reduceIte]
    exact (stop_motors_spec c env _).active
  · exact Or.inr ⟨rfl, switch_unguarded c env starts stops upstream m.system⟩
  · exact Or.inr ⟨rfl, set_command_unguarded i position velocity effort m.system⟩
  · exact Or.inr ⟨rfl, write_unguarded c env period upstream frames m.system⟩

/-- The guard trips on a joint when the streak that this look ends has lasted. -/
theorem stalled_iff {l : List (Look K n)} {s : SafeSystem K n} (hm : Mirrors c env l s)
    (hheard : AllHeard (drained c env s)) (hs : s.socket = true) (i : Fin n) :
    Stalled (c.joint i) (look c env s).time ((drained c env s).joints i) ↔
      0 < (c.joint i).stall_effort ∧
      ∃ before first between,
        l ++ [look c env s] = before ++ first :: (between ++ [look c env s]) ∧
        (∀ x ∈ first :: (between ++ [look c env s]), over_limit c i x) ∧
        (c.joint i).stall_time ≤ ((look c env s).time - first.time) / nsPerMs := by
  have hQ : l.Pairwise fun a b : Look K n =>
      (c.joint i).stall_time ≤ ((look c env s).time - b.time) / nsPerMs →
        (c.joint i).stall_time ≤ ((look c env s).time - a.time) / nsPerMs :=
    hm.ordered.imp fun hab h => h.trans (Nat.div_le_div_right (Nat.sub_le_sub_left hab _))
  rw [streak_reaches_iff hQ]
  have heffort : effort (c.joint i) ((drained c env s).joints i) = (look c env s).effort i := by
    simp only [look, drain_status_open c env hs]
  have hguard := (drained_only c env s i).guard
  rw [Stalled, heffort, hguard.over_effort, hguard.over_effort_since, over_limit, decide_eq_true_iff]
  refine and_congr_right fun hpos => ?_
  rw [hm.latch i hpos]
  have hheard := hheard i
  constructor
  · rintro ⟨-, hover, hlatch, htime⟩
    refine ⟨hover, ?_⟩
    cases hstreak : l.rtakeWhile (over_limit c i) with
    | nil => rw [hstreak] at hlatch; cases hlatch
    | cons first rest =>
      have hsince := hm.since i hpos first (by rw [hstreak]; rfl)
      exact ⟨first, rfl, hsince ▸ htime⟩
  · rintro ⟨hover, first, hhead, htime⟩
    refine ⟨hheard, hover, ?_, (hm.since i hpos first hhead).symm ▸ htime⟩
    cases hstreak : l.rtakeWhile (over_limit c i) with
    | nil => rw [hstreak] at hhead; cases hhead
    | cons first rest => rfl

/-- What an active phase keeps, from the activation on. -/
theorem active_run {m₁ m : Managed K n} {fs : List (Event K n)}
    (hi : StopInv m₁) (hw : WatchInv c env m₁.system) (ha : m₁.system.active = true)
    (hm : Mirrors c env [] m₁.system) (hr : Run (next_active c env) m₁ fs m) :
    StopInv m ∧ WatchInv c env m.system ∧ m.system.active = true ∧
      Mirrors c env (looks c env m₁ fs) m.system := by
  induction hr with
  | nil => exact ⟨hi, hw, ha, hm⟩
  | @snoc fs t u e hr hn ih =>
    obtain ⟨hi, hw, ha, hm⟩ := ih
    refine ⟨next_inv c env hi hn.1, next_watch c env hi hw hn.1, hn.2.1, ?_⟩
    rw [looks_snoc c env hr]
    rcases active_step c env hi ha hn with ⟨upstream, base, rfl, hh⟩ | ⟨hnone, hu⟩
    · have hs := (motors_healthy_true c env ha hh).1
      have hguarded := read_guarded c env ha hh upstream base
      have hheard : AllHeard (drained c env t.system) := fun i =>
        (drained_follows c env t.system).hears i (hw.heard ha i)
      obtain ⟨⟨-, rfl⟩, ha', -⟩ := hn
      by_cases hcalm : ∀ i, ¬ Stalled (c.joint i) (look c env t.system).time
          ((drained c env t.system).joints i)
      · obtain ⟨-, hreadings, hjoints⟩ := hguarded.calm hcalm
        exact hm.looked c env hheard hs hreadings hjoints
      · exact absurd (ha'.symm.trans (hguarded.trips hcalm).2) (by decide)
    · rw [hnone, List.append_nil]
      exact hm.unguarded c env hu

/-- In the looks `l`, the joint has been over its limit from some look before the last one
through the last one, for at least its stall time. -/
def HasStalled (l : List (Look K n)) (i : Fin n) : Prop :=
  0 < (c.joint i).stall_effort ∧
    ∃ before first between last, l = before ++ first :: (between ++ [last]) ∧
      (∀ x ∈ first :: (between ++ [last]), (c.joint i).stall_effort < x.effort i) ∧
      (c.joint i).stall_time ≤ (last.time - first.time) / nsPerMs

/-- Stall guard exactness. In every run, from a successful activation on and as long as the
component is active, a `read` of healthy motors stops the component exactly when some joint
has been over its limit without a break, since a `read` before this one and for its stall
time; the stop then is complete and `read` fails. -/
theorem stall_guard_exact {es fs : List (Event K n)} {m₀ m₁ m m' : Managed K n}
    {activation : CallbackReturn} {upstream : ReturnType} {base : Fin n → Interface → Dbl K}
    (hr : Run (next c env) {} es m₀) (hactivated : next c env m₀ (.on_activate activation) m₁)
    (hsuccess : (step c env (.on_activate activation) m₀.system).1 = .callback .SUCCESS)
    (hactive : Run (next_active c env) m₁ fs m) (hn : next c env m (.read upstream base) m')
    (hh : (motors_healthy c env m.system).1 = true) :
    let seen := looks c env m₁ (fs ++ [.read upstream base])
    (m'.system.active = false ↔ ∃ i, HasStalled c seen i) ∧
    ((∃ i, HasStalled c seen i) →
      (step c env (.read upstream base) m.system).1 = .real_time .ERROR ∧
        Stops c m.system m'.system) := by
  intro seen
  obtain ⟨hi₀, hw₀⟩ := run_watch c env hr
  have hi₁ := next_inv c env hi₀ hactivated
  have hw₁ := next_watch c env hi₀ hw₀ hactivated
  have hsuccess : (on_activate c env activation m₀.system).1 = .SUCCESS :=
    Result.callback.inj hsuccess
  have hopened := hi₀.opened (Or.inl hactivated.1)
  have ha₁ : m₁.system.active = true := by
    rw [hactivated.2]
    exact (on_activate_change c env activation m₀.system hopened
      (hi₀.idle (Or.inr (Or.inl hactivated.1)))).2.2.mpr hsuccess
  have hm₁ : Mirrors c env [] m₁.system := by
    rw [hactivated.2]
    exact activated_mirrors c env hopened hsuccess
  obtain ⟨hi, hw, ha, hm⟩ := active_run c env hi₁ hw₁ ha₁ hm₁ hactive
  have hs := (motors_healthy_true c env ha hh).1
  have hheard : AllHeard (drained c env m.system) := fun i =>
    (drained_follows c env m.system).hears i (hw.heard ha i)
  have hguarded := read_guarded c env ha hh upstream base
  -- what the guard trips on is what the history shows
  have hseen : seen = looks c env m₁ fs ++ [look c env m.system] := looks_snoc c env hactive _
  have hiff : ∀ i, Stalled (c.joint i) (look c env m.system).time
      ((drained c env m.system).joints i) ↔ HasStalled c seen i := by
    intro i
    rw [stalled_iff c env hm hheard hs i, HasStalled, hseen]
    refine and_congr_right fun _ => ⟨?_, ?_⟩
    · rintro ⟨before, first, between, hl, hall, htime⟩
      exact ⟨before, first, between, look c env m.system, hl,
        fun x hx => of_decide_eq_true (hall x hx), htime⟩
    · rintro ⟨before, first, between, last, hl, hall, htime⟩
      obtain rfl : look c env m.system = last := by
        have h : looks c env m₁ fs ++ [look c env m.system] =
            (before ++ first :: between) ++ [last] := by simpa using hl
        exact (List.cons.inj (List.append_inj' h rfl).2).1
      exact ⟨before, first, between, hl, fun x hx => decide_eq_true (hall x hx), htime⟩
  have hstate : m'.system = (read c env upstream base m.system).2 := by rw [hn.2]; rfl
  have hresult : (step c env (.read upstream base) m.system).1 =
      .real_time (read c env upstream base m.system).1 := rfl
  by_cases hcalm : ∀ i, ¬ Stalled (c.joint i) (look c env m.system).time
      ((drained c env m.system).joints i)
  · have hnone : ¬ ∃ i, HasStalled c seen i := fun ⟨i, h⟩ => hcalm i ((hiff i).mpr h)
    refine ⟨⟨fun h => ?_, fun h => absurd h hnone⟩, fun h => absurd h hnone⟩
    rw [hstate, (hguarded.calm hcalm).1] at h
    cases h
  · obtain ⟨herror, hstop⟩ := hguarded.trips hcalm
    rw [← hstate] at hstop
    have hsome : ∃ i, HasStalled c seen i := by
      obtain ⟨i, h⟩ := not_forall.mp hcalm
      exact ⟨i, (hiff i).mp (not_not.mp h)⟩
    refine ⟨⟨fun _ => hsome, fun _ => hstop⟩, fun _ => ⟨by rw [hresult, herror], ?_⟩⟩
    exact must_stop_stops c env hi hn (Or.inl ⟨ha, Or.inl hstop⟩)

/-- The joint of `gizmo` with a stall limit of 1 Nm for 10 ms. -/
def blocked : Component ℚ 1 where
  joint i := { gizmo.joint i with stall_effort := 1, stall_time := 10 }
  status_timeout := 100
  brake_time := 60
  valid i :=
    { direction := (gizmo.valid i).direction
      gear_ratio := (gizmo.valid i).gear_ratio
      stall_effort := zero_le_one
      max_velocity := (gizmo.valid i).max_velocity
      limits := (gizmo.valid i).limits }
  can_ids := fun _ _ _ => Subsingleton.elim _ _

/-- Every status frame of motor 1 reports a current of 2.56 A. -/
def pushing : Env where
  clock := (fault_at 0).clock
  written _ := true
  batch _ := ⟨[⟨true, 1, 8, fun k => if k.val = 4 then 1 else 0⟩], false⟩

/-- The component after its activation. -/
def pushing_up : Managed ℚ 1 :=
  perform blocked pushing (perform blocked pushing {} (.on_configure true .SUCCESS))
    (.on_activate .SUCCESS)

def pushed (m : Managed ℚ 1) : Managed ℚ 1 :=
  perform blocked pushing m (.read .OK fun _ _ => .nan)

/-- The second `read` after an activation stops that joint. -/
theorem stall_guard_exact_blocked :
    ∃ i, HasStalled blocked (looks blocked pushing pushing_up
      [.read .OK fun _ _ => .nan, .read .OK fun _ _ => .nan]) i := by
  have hrun : Run (next blocked pushing) {} [.on_configure true .SUCCESS]
      (perform blocked pushing {} (.on_configure true .SUCCESS)) := Run.single ⟨rfl, rfl⟩
  have hactivated : next blocked pushing (perform blocked pushing {} (.on_configure true .SUCCESS))
      (.on_activate .SUCCESS) pushing_up := ⟨rfl, rfl⟩
  have hl : pushing_up.lifecycle ≠ .destroyed := by decide +kernel
  have hfirst : Run (next_active blocked pushing) pushing_up [.read .OK fun _ _ => .nan]
      (pushed pushing_up) :=
    Run.single ⟨⟨hl, rfl⟩, by decide +kernel, fun h => by cases h⟩
  have hl' : (pushed pushing_up).lifecycle ≠ .destroyed := by decide +kernel
  exact (stall_guard_exact blocked pushing hrun hactivated (by decide +kernel) hfirst
    ⟨hl', rfl⟩ (by decide +kernel)).1.mp (by decide +kernel)

end IotRobot.Safe
