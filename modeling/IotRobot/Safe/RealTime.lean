import IotRobot.Safe.Effects

/-!
# Mode switches, reads and writes, joint by joint

The real-time callbacks visit the joints one after another. Each visit changes its
own joint only, so a callback does to every joint what one visit does to it.
-/

namespace IotRobot.Safe

open Lib Can

set_option autoImplicit false

section Silent
variable {K : Type} {n : Nat}

/-- The socket, the flags, the bus and both histories are those of `s`. -/
structure Silent (s s' : SafeSystem K n) : Prop where
  keeps : Keeps s s'
  bus : s'.bus = s.bus
  handed : s'.handed = s.handed
  heard : s'.heard = s.heard
  drains : s'.drains = s.drains

theorem Silent.refl (s : SafeSystem K n) : Silent s s := ⟨Keeps.refl s, rfl, rfl, rfl, rfl⟩

theorem Silent.trans {s t u : SafeSystem K n} (h : Silent s t) (g : Silent t u) : Silent s u :=
  ⟨h.keeps.trans g.keeps, g.bus.trans h.bus, g.handed.trans h.handed, g.heard.trans h.heard,
    g.drains.trans h.drains⟩

end Silent

variable {K : Type} [Field K] [LinearOrder K] {n : Nat} (c : Component K n) (env : Env)

/-- What a mode switch does to one joint: `claims` says that a controller starts with
its position interface, `starts` with any of its interfaces, `stops` that one stops. -/
structure Switched (p : JointParams K) (claims starts stops : Bool) (j j' : Joint K) : Prop where
  status : SameStatus j j'
  position_claimed : j'.position_claimed =
    if starts then claims else if stops then false else j.position_claimed
  target : j'.target = if starts && claims then measured_position p j else j.target

/-- A joint after its visit by a mode switch, where `release_at` is the end of the
non-blocking stop that the visit may start. -/
def Joint.switched (p : JointParams K) (claims starts stops active : Bool) (release_at : Nat)
    (joint : Joint K) : Joint K :=
  let joint := if stops then joint.unclaim else joint
  let joint :=
    if stops && !starts && active then { joint with releasing := true, release_at := release_at }
    else joint
  if starts then joint.start p claims else joint

/-- One visit of the mode switch looks at the clock only where it starts a stop. -/
theorem switch_joint_eq (starts stops : List String) (s : SafeSystem K n) (i : Fin n) :
    let started := has_prefix_in starts ((c.joint i).name ++ "/")
    let stopped := has_prefix_in stops ((c.joint i).name ++ "/")
    switch_joint c env starts stops s i = { s with
      readings := if stopped && !started && s.active then s.readings + 1 else s.readings
      joints := Function.update s.joints i ((s.joints i).switched (c.joint i)
        (starts.contains ((c.joint i).name ++ "/" ++ HW_IF_POSITION)) started stopped s.active
        (env.clock.reading s.readings + c.brake_time * nsPerMs)) } := by
  intro started stopped
  unfold switch_joint Joint.switched
  cases h : stopped && !started && s.active with
  | true =>
    simp only [started, stopped] at h ⊢
    simp only [h, ↓reduceIte, now]
  | false =>
    simp only [started, stopped] at h ⊢
    simp only [h, Bool.false_eq_true, ↓reduceIte]

omit [LinearOrder K] in
theorem switched_spec (p : JointParams K) (claims starts stops active : Bool) (release_at : Nat)
    (joint : Joint K) :
    Switched p claims starts stops joint (joint.switched p claims starts stops active release_at) := by
  cases starts <;> cases stops <;> cases active <;>
    exact ⟨⟨rfl, rfl, rfl, rfl, rfl, rfl⟩, rfl, by cases claims <;> rfl⟩

theorem switch_joint_spec (starts stops : List String) (s : SafeSystem K n) (i : Fin n) :
    let s' := switch_joint c env starts stops s i
    Silent s s' ∧ (∀ j, j ≠ i → s'.joints j = s.joints j) ∧
      Switched (c.joint i) (starts.contains ((c.joint i).name ++ "/" ++ HW_IF_POSITION))
        (has_prefix_in starts ((c.joint i).name ++ "/"))
        (has_prefix_in stops ((c.joint i).name ++ "/")) (s.joints i) (s'.joints i) := by
  intro s'
  have hs' : s' = _ := switch_joint_eq c env starts stops s i
  rw [hs']
  refine ⟨⟨⟨rfl, rfl, rfl⟩, rfl, rfl, rfl, rfl⟩, fun j hj => Function.update_of_ne hj .., ?_⟩
  simp only [Function.update_self]
  exact switched_spec (c.joint i) _ _ _ _ _ (s.joints i)

/-- A mode switch, successful or not, sends nothing. -/
theorem switch_silent (starts stops : List String) (upstream : ReturnType)
    (s : SafeSystem K n) :
    Silent s (perform_command_mode_switch c env starts stops upstream s).2 := by
  unfold perform_command_mode_switch
  split
  · exact Silent.refl s
  · exact sweep_relates _ Silent Silent.refl (fun _ _ _ => Silent.trans)
      (fun t i => (switch_joint_spec c env starts stops t i).1) _ s

/-- A successful mode switch does to every joint what its interfaces ask for. -/
theorem switch_joints (starts stops : List String) (s : SafeSystem K n) (i : Fin n) :
    Switched (c.joint i) (starts.contains ((c.joint i).name ++ "/" ++ HW_IF_POSITION))
      (has_prefix_in starts ((c.joint i).name ++ "/")) (has_prefix_in stops ((c.joint i).name ++ "/"))
      (s.joints i) ((perform_command_mode_switch c env starts stops .OK s).2.joints i) := by
  have h := sweep_all (switch_joint c env starts stops) (fun s i => s.joints i) (fun _ => True)
    (fun i => Switched (c.joint i)
      (starts.contains ((c.joint i).name ++ "/" ++ HW_IF_POSITION))
      (has_prefix_in starts ((c.joint i).name ++ "/")) (has_prefix_in stops ((c.joint i).name ++ "/")))
    (fun _ _ _ => trivial)
    (fun s i _ => (switch_joint_spec c env starts stops s i).2.2)
    (fun s i j _ hj => (switch_joint_spec c env starts stops s i).2.1 j hj) s trivial
  exact h.2 i

theorem export_states_looks (base : Fin n → Interface → Dbl K) (s : SafeSystem K n) :
    Looks c env s (export_states c base s) :=
  ⟨⟨rfl, rfl, rfl⟩, Sends.of_bus_eq rfl, rfl, le_rfl, fun _ => ⟨rfl, rfl, rfl, rfl, rfl, rfl, rfl⟩,
    Follows.of_same rfl rfl fun _ => ⟨rfl, rfl, rfl, rfl, rfl, rfl⟩⟩

/-- A component that is not active is healthy whatever its motors report. -/
theorem motors_healthy_idle {s : SafeSystem K n} (h : s.active = false) :
    (motors_healthy c env s).1 = true := by
  unfold motors_healthy
  by_cases hs : s.socket = false
  · rw [if_pos hs, h]
    rfl
  · rw [if_neg hs]
    have hd := drain_status_idle c env h
    have hk := (drain_status_looks c env s).keeps.active
    rcases hp : drain_status c env s with ⟨ok, t⟩
    rw [hp] at hd hk
    simp only at hd hk
    simp only [hd, Bool.true_eq_false, ↓reduceIte, hk, h]

/-- `read` has looked at the motors and, if it stops them, does nothing else. -/
theorem read_cases (upstream : ReturnType) (base : Fin n → Interface → Dbl K)
    (s : SafeSystem K n) :
    (∃ t, Looks c env s t ∧ s.active = true ∧
      read c env upstream base s = (.ERROR, stop_motors c env { t with active := false })) ∨
    (∃ t, Looks c env s t ∧ read c env upstream base s = (upstream, t)) := by
  have hl := (motors_healthy_looks c env s).trans
    (export_states_looks c env base (motors_healthy c env s).2)
  have hidle := motors_healthy_idle c env (s := s)
  unfold read
  rcases hp : motors_healthy c env s with ⟨healthy, t⟩
  rw [hp] at hl hidle
  dsimp only
  by_cases hh : healthy = false
  · rw [if_pos hh]
    subst hh
    refine Or.inl ⟨_, hl, ?_, rfl⟩
    by_contra ha
    cases hidle (Bool.eq_false_of_not_eq_true ha)
  · rw [if_neg hh]
    by_cases ha : (export_states c base t).active = false
    · rw [if_pos ha]
      exact Or.inr ⟨_, hl, rfl⟩
    · rw [if_neg ha]
      have hactive : s.active = true :=
        hl.keeps.active ▸ Bool.eq_true_of_not_eq_false ha
      have he := hl.trans (efforts_ok_looks c env (export_states c base t))
      rcases hq : efforts_ok c env (export_states c base t) with ⟨ok, u⟩
      rw [hq] at he
      dsimp only
      by_cases hok : ok = false
      · rw [if_pos hok]
        exact Or.inl ⟨u, he, hactive, rfl⟩
      · rw [if_neg hok]
        exact Or.inr ⟨u, he, rfl⟩

section Handed
variable {K : Type} {n : Nat}

/-- The positions handed to the upstream plugin for a joint, oldest first. -/
def positions (i : Fin n) (handed : List (Handed K n)) : List (Dbl K) :=
  (handed.filter fun h => h.joint = i ∧ h.interface = .position).map (·.value)

theorem positions_append (i : Fin n) (h g : List (Handed K n)) :
    positions i (h ++ g) = positions i h ++ positions i g := by
  rw [positions, List.filter_append, List.map_append]
  rfl

/-- A command for another interface or another joint is none of the positions. -/
theorem positions_other (i j : Fin n) (interface : Interface) (value : Dbl K) (b : Bool)
    (h : i ≠ j ∨ interface ≠ .position) :
    positions j (if b then [⟨i, interface, value⟩] else []) = [] := by
  cases b with
  | false => rfl
  | true =>
    have hf : ¬ (i = j ∧ interface = .position) := fun hp => h.elim (· hp.1) (· hp.2)
    simp [positions, hf]

theorem positions_own (i : Fin n) (value : Dbl K) (b : Bool) :
    positions i (if b then [⟨i, .position, value⟩] else []) = if b then [value] else [] := by
  cases b <;> simp [positions]

end Handed

/-- What one `write` does to a joint and the positions handed on for it. -/
structure Written (p : JointParams K) (dt : K) (a b : Joint K × List (Dbl K)) : Prop where
  status : SameStatus a.1 b.1
  position_claimed : b.1.position_claimed = a.1.position_claimed
  target : b.1.target =
    if p.position_commanded then (position_command p a.1 dt).1 else a.1.target
  handed : b.2 =
    if p.position_commanded && p.base_command .position then
      a.2 ++ [(position_command p a.1 dt).2]
    else a.2

/-- `set_base_command` appends to what was handed on, or does nothing. -/
theorem set_base_command_eq (i : Fin n) (interface : Interface) (value : Dbl K)
    (s : SafeSystem K n) :
    set_base_command c i interface value s = { s with
      handed := s.handed ++
        if (c.joint i).base_command interface then [⟨i, interface, value⟩] else [] } := by
  unfold set_base_command
  split
  · rfl
  · rw [List.append_nil]

/-- The frames that a `write` sends itself. -/
def Releasing (b : Bus n) : Prop :=
  ∃ i, b = .own i (zero_speed (c.joint i)) ∨ b = .own i (zero_current (c.joint i))

/-- The frame of the non-blocking stop that one `write` sends for a joint, if any. -/
def release_frames (p : JointParams K) (t : Nat) (joint : Joint K) : List CanFrame :=
  if joint.releasing then [if t < joint.release_at then zero_speed p else zero_current p] else []

/-- A joint after its visit by `write`. -/
def Joint.written (p : JointParams K) (dt : K) (t : Nat) (joint : Joint K) : Joint K :=
  { joint with
    releasing := joint.releasing && decide (t < joint.release_at)
    target := if p.position_commanded then (position_command p joint dt).1 else joint.target }

/-- What the visit hands to the upstream plugin. -/
def handed_on (p : JointParams K) (i : Fin n) (dt : K) (joint : Joint K) : List (Handed K n) :=
  let own (interface : Interface) (value : Dbl K) : List (Handed K n) :=
    if p.base_command interface then [⟨i, interface, value⟩] else []
  own .velocity (joint.command_velocity.scale p.direction) ++
    own .effort (joint.command_effort.scale p.direction) ++
    if p.position_commanded then own .position (position_command p joint dt).2 else []

/-- One visit of `write`. -/
theorem write_joint_eq (dt : K) (t : Nat) (s : SafeSystem K n) (i : Fin n) :
    write_joint c env dt t s i = { s with
      joints := Function.update s.joints i ((s.joints i).written (c.joint i) dt t)
      writes := s.writes + (release_frames (c.joint i) t (s.joints i)).length
      bus := s.bus ++ (release_frames (c.joint i) t (s.joints i)).map (.own i)
      handed := s.handed ++ handed_on (c.joint i) i dt (s.joints i) } := by
  -- the frame first, then the three commands
  have hrelease : (if (s.joints i).releasing then continue_release c env t i s else s) = { s with
      joints := Function.update s.joints i { s.joints i with
        releasing := (s.joints i).releasing && decide (t < (s.joints i).release_at) }
      writes := s.writes + (release_frames (c.joint i) t (s.joints i)).length
      bus := s.bus ++ (release_frames (c.joint i) t (s.joints i)).map (.own i) } := by
    unfold continue_release release_frames
    cases hr : (s.joints i).releasing with
    | false =>
      have hsame : { s.joints i with releasing := false } = s.joints i := by rw [← hr]
      simp only [Bool.false_eq_true, ↓reduceIte, Bool.false_and, List.map_nil, List.append_nil,
        List.length_nil, Nat.add_zero, hsame, Function.update_eq_self]
    | true =>
      simp only [↓reduceIte, Bool.true_and, List.map_singleton, List.length_singleton]
      by_cases ht : t < (s.joints i).release_at
      · have hsame : { s.joints i with releasing := true } = s.joints i := by rw [← hr]
        simp only [ht, ↓reduceIte, decide_true, hsame, Function.update_eq_self, send]
      · simp only [ht, ↓reduceIte, decide_false, send]
  unfold write_joint
  simp only [hrelease, set_base_command_eq, Function.update_self, Function.update_idem]
  cases hp : (c.joint i).position_commanded with
  | false =>
    simp only [hp, ↓reduceIte, Joint.written, handed_on, Bool.false_eq_true, List.append_nil,
      List.append_assoc]
  | true =>
    simp only [hp, Bool.true_eq_false, ↓reduceIte, Joint.written, handed_on, List.append_assoc]
    rfl

theorem positions_handed_on (p : JointParams K) (i : Fin n) (dt : K) (joint : Joint K) :
    positions i (handed_on p i dt joint) =
      if p.position_commanded && p.base_command .position then [(position_command p joint dt).2]
      else [] := by
  simp only [handed_on, positions_append, positions_other i i .velocity _ _ (Or.inr (by decide)),
    positions_other i i .effort _ _ (Or.inr (by decide)), List.nil_append]
  cases p.position_commanded with
  | false => rfl
  | true => exact positions_own i _ _

theorem positions_handed_on_other (p : JointParams K) {i j : Fin n} (hj : j ≠ i) (dt : K)
    (joint : Joint K) : positions j (handed_on p i dt joint) = [] := by
  have hne := fun interface value b =>
    positions_other (K := K) i j interface value b (Or.inl (Ne.symm hj))
  simp only [handed_on, positions_append, hne, List.nil_append]
  split
  · exact hne ..
  · rfl

theorem write_joint_spec (dt : K) (t : Nat) (s : SafeSystem K n) (i : Fin n) :
    let s' := write_joint c env dt t s i
    Keeps s s' ∧ Sends (Releasing c) s s' ∧ (s'.heard = s.heard ∧ s'.drains = s.drains) ∧
      (∀ j, j ≠ i → (s'.joints j, positions j s'.handed) =
        (s.joints j, positions j s.handed)) ∧
      Written (c.joint i) dt (s.joints i, positions i s.handed)
        (s'.joints i, positions i s'.handed) := by
  intro s'
  have hs' : s' = _ := write_joint_eq c env dt t s i
  rw [hs']
  refine ⟨⟨rfl, rfl, rfl⟩, ⟨_, rfl, fun b hb => ?_⟩, ⟨rfl, rfl⟩, fun j hj => ?_, ?_⟩
  · unfold release_frames at hb
    split at hb
    · obtain rfl := List.mem_singleton.mp hb
      refine ⟨i, ?_⟩
      split
      · exact Or.inl rfl
      · exact Or.inr rfl
    · exact absurd hb List.not_mem_nil
  · simp only [positions_append, positions_handed_on_other (c.joint i) hj, List.append_nil,
      Function.update_of_ne hj]
  · simp only [positions_append, positions_handed_on, Function.update_self]
    refine ⟨⟨rfl, rfl, rfl, rfl, rfl, rfl⟩, rfl, rfl, ?_⟩
    dsimp only
    split
    · rfl
    · exact List.append_nil _

/-- A `write` of an active component: its own frames drive nothing, then come those of
the upstream plugin. -/
theorem write_active {s : SafeSystem K n} (h : s.active = true) (period : K)
    (upstream : ReturnType) (frames : List CanFrame) :
    let s' := (write c env period upstream frames s).2
    Keeps s s' ∧ (s'.heard = s.heard ∧ s'.drains = s.drains) ∧
      (∃ added, s'.bus = s.bus ++ added ++ frames.map .upstream ∧ ∀ b ∈ added, Releasing c b) ∧
      ∀ i, Written (c.joint i) (slew_period period) (s.joints i, positions i s.handed)
        (s'.joints i, positions i s'.handed) := by
  intro s'
  let s₀ := (now env s).2
  let t := env.clock.reading s.readings
  let body := write_joint c env (slew_period period) t
  let s₁ := (List.finRange n).foldl body s₀
  have hs' : s' = { s₁ with bus := s₁.bus ++ frames.map .upstream } := by
    simp only [s', write, h, Bool.true_eq_false, ↓reduceIte]
    rfl
  have hsweep := sweep_all body (fun s i => (s.joints i, positions i s.handed))
    (fun u => Keeps s u ∧ (u.heard = s.heard ∧ u.drains = s.drains) ∧ Sends (Releasing c) s u)
    (fun i => Written (c.joint i) (slew_period period))
    (by
      intro u i hu
      have hspec := write_joint_spec c env (slew_period period) t u i
      exact ⟨hu.1.trans hspec.1, ⟨hspec.2.2.1.1.trans hu.2.1.1, hspec.2.2.1.2.trans hu.2.1.2⟩,
        hu.2.2.trans hspec.2.1⟩)
    (fun u i _ => (write_joint_spec c env (slew_period period) t u i).2.2.2.2)
    (fun u i j _ hj => (write_joint_spec c env (slew_period period) t u i).2.2.2.1 j hj)
    s₀ ⟨⟨rfl, rfl, rfl⟩, ⟨rfl, rfl⟩, Sends.of_bus_eq rfl⟩
  obtain ⟨⟨hkeeps, hheard, added, hbus, hadded⟩, hjoints⟩ := hsweep
  rw [hs']
  exact ⟨⟨hkeeps.socket, hkeeps.active, hkeeps.stopped⟩, hheard,
    ⟨added, by rw [← hbus], hadded⟩, hjoints⟩

theorem write_inactive {s : SafeSystem K n} (h : s.active = false) (period : K)
    (upstream : ReturnType) (frames : List CanFrame) :
    write c env period upstream frames s = (.OK, s) := by
  simp only [write, h, ↓reduceIte]

end IotRobot.Safe
