import IotRobot.Safe.Heard

/-!
# What each function does to the bus and to the flags

One lemma a function. `Keeps` says that a function leaves the socket and the two
flags alone, `Sends P` that all it adds to the bus satisfies `P`. The stop itself
is described exactly: complete rounds of zero speed, at least one, and then one
round of zero current.
-/

namespace IotRobot.Safe

open Lib Can

set_option autoImplicit false

section Relations
variable {K : Type} {n : Nat}

/-- The socket and the flags `active_` and `stopped_` are those of `s`. -/
structure Keeps (s s' : SafeSystem K n) : Prop where
  socket : s'.socket = s.socket
  active : s'.active = s.active
  stopped : s'.stopped = s.stopped

/-- Everything on the bus of `s'` after the frames of `s` satisfies `P`. -/
def Sends (P : Bus n → Prop) (s s' : SafeSystem K n) : Prop :=
  ∃ added, s'.bus = s.bus ++ added ∧ ∀ b ∈ added, P b

theorem Keeps.refl (s : SafeSystem K n) : Keeps s s := ⟨rfl, rfl, rfl⟩

theorem Keeps.trans {s t u : SafeSystem K n} (h : Keeps s t) (g : Keeps t u) : Keeps s u :=
  ⟨g.socket.trans h.socket, g.active.trans h.active, g.stopped.trans h.stopped⟩

theorem Sends.refl (P : Bus n → Prop) (s : SafeSystem K n) : Sends P s s :=
  ⟨[], (List.append_nil _).symm, fun _ h => absurd h List.not_mem_nil⟩

theorem Sends.of_bus_eq {P : Bus n → Prop} {s s' : SafeSystem K n} (h : s'.bus = s.bus) :
    Sends P s s' := by
  obtain ⟨added, ha, hp⟩ := Sends.refl P s
  exact ⟨added, h.trans ha, hp⟩

theorem Sends.trans {P : Bus n → Prop} {s t u : SafeSystem K n} (h : Sends P s t)
    (g : Sends P t u) : Sends P s u := by
  obtain ⟨a, ha, hpa⟩ := h
  obtain ⟨b, hb, hpb⟩ := g
  refine ⟨a ++ b, by rw [hb, ha, List.append_assoc], ?_⟩
  intro x hx
  rcases List.mem_append.mp hx with hx | hx
  · exact hpa x hx
  · exact hpb x hx

/-- The members a controller or the upstream plugin acts through. -/
structure SameControl (j j' : Joint K) : Prop where
  position_claimed : j'.position_claimed = j.position_claimed
  target : j'.target = j.target
  releasing : j'.releasing = j.releasing
  release_at : j'.release_at = j.release_at
  command_position : j'.command_position = j.command_position
  command_velocity : j'.command_velocity = j.command_velocity
  command_effort : j'.command_effort = j.command_effort

theorem SameControl.refl (j : Joint K) : SameControl j j := ⟨rfl, rfl, rfl, rfl, rfl, rfl, rfl⟩

theorem SameControl.trans {j k l : Joint K} (h : SameControl j k) (g : SameControl k l) :
    SameControl j l :=
  ⟨g.position_claimed.trans h.position_claimed, g.target.trans h.target,
    g.releasing.trans h.releasing, g.release_at.trans h.release_at,
    g.command_position.trans h.command_position, g.command_velocity.trans h.command_velocity,
    g.command_effort.trans h.command_effort⟩

theorem Sends.mono {P Q : Bus n → Prop} (hpq : ∀ b, P b → Q b) {s s' : SafeSystem K n}
    (h : Sends P s s') : Sends Q s s' := by
  obtain ⟨added, ha, hp⟩ := h
  exact ⟨added, ha, fun b hb => hpq b (hp b hb)⟩

end Relations

section Watching
variable {K : Type} [Field K] [LinearOrder K] {n : Nat} (c : Component K n) (env : Env)

/-- What is known of the status frames carries over from `s`. -/
structure Follows (s s' : SafeSystem K n) : Prop where
  tracks : Tracks c s → Tracks c s'
  hears : ∀ i, (s.joints i).has_status = true → (s'.joints i).has_status = true
  supplied : Supplied env s → Supplied env s'
  drains : s.drains ≤ s'.drains

/-- Nothing is commanded: time passes and status frames may come in, while the
frames sent satisfy `P`. -/
structure Watches (P : Bus n → Prop) (s s' : SafeSystem K n) : Prop where
  keeps : Keeps s s'
  sends : Sends P s s'
  handed : s'.handed = s.handed
  readings : s.readings ≤ s'.readings
  joints : ∀ i, SameControl (s.joints i) (s'.joints i)
  follows : Follows c env s s'

/-- Functions that only look send nothing: the empty predicate. -/
abbrev Looks (s s' : SafeSystem K n) : Prop := Watches c env (fun _ => False) s s'

variable {c env}

theorem Follows.of_same {s s' : SafeSystem K n} (hh : s'.heard = s.heard)
    (hd : s'.drains = s.drains) (hs : ∀ i, SameStatus (s.joints i) (s'.joints i)) :
    Follows c env s s' := by
  refine ⟨fun ht i => hh ▸ (ht i).same (hs i), fun i h => (hs i).has_status.trans h, ?_, hd.ge⟩
  intro h
  rw [Supplied, hh, hd]
  exact h

theorem Follows.refl (s : SafeSystem K n) : Follows c env s s :=
  Follows.of_same rfl rfl fun _ => SameStatus.refl _

theorem Follows.trans {s t u : SafeSystem K n} (h : Follows c env s t)
    (g : Follows c env t u) : Follows c env s u :=
  ⟨fun ht => g.tracks (h.tracks ht), fun i hi => g.hears i (h.hears i hi),
    fun hs => g.supplied (h.supplied hs), h.drains.trans g.drains⟩

theorem Watches.refl (P : Bus n → Prop) (s : SafeSystem K n) : Watches c env P s s :=
  ⟨Keeps.refl s, Sends.refl P s, rfl, le_rfl, fun _ => SameControl.refl _, Follows.refl s⟩

theorem Watches.trans {P : Bus n → Prop} {s t u : SafeSystem K n} (h : Watches c env P s t)
    (g : Watches c env P t u) : Watches c env P s u :=
  ⟨h.keeps.trans g.keeps, h.sends.trans g.sends, g.handed.trans h.handed,
    h.readings.trans g.readings, fun i => (h.joints i).trans (g.joints i),
    h.follows.trans g.follows⟩

theorem Watches.mono {P Q : Bus n → Prop} (hpq : ∀ b, P b → Q b) {s s' : SafeSystem K n}
    (h : Watches c env P s s') : Watches c env Q s s' :=
  ⟨h.keeps, h.sends.mono hpq, h.handed, h.readings, h.joints, h.follows⟩

theorem Looks.watches {P : Bus n → Prop} {s s' : SafeSystem K n} (h : Looks c env s s') :
    Watches c env P s s' := h.mono fun _ hf => hf.elim

theorem Looks.bus {s s' : SafeSystem K n} (h : Looks c env s s') : s'.bus = s.bus := by
  obtain ⟨added, ha, hp⟩ := h.sends
  cases added with
  | nil => rw [ha, List.append_nil]
  | cons b _ => exact (hp b (List.mem_cons_self ..)).elim

variable (env)

theorem now_looks (s : SafeSystem K n) : Looks c env s (now env s).2 :=
  ⟨⟨rfl, rfl, rfl⟩, Sends.of_bus_eq rfl, rfl, Nat.le_succ _, fun _ => SameControl.refl _,
    Follows.of_same rfl rfl fun _ => SameStatus.refl _⟩

theorem send_watches (P : Bus n → Prop) (i : Fin n) (frame : CanFrame) (s : SafeSystem K n)
    (h : P (.own i frame)) : Watches c env P s (send env i frame s).2 :=
  ⟨⟨rfl, rfl, rfl⟩, ⟨[.own i frame], rfl, fun b hb => by
    rw [List.mem_singleton.mp hb]; exact h⟩, rfl, le_rfl, fun _ => SameControl.refl _,
    Follows.of_same rfl rfl fun _ => SameStatus.refl _⟩

end Watching

section Send
variable {K : Type} {n : Nat} (env : Env)

/-- The attempts of one `for` over the joints. -/
def each (frame : Fin n → CanFrame) : List (Bus n) :=
  (List.finRange n).map fun i => .own i (frame i)

private theorem foldl_send (frame : Fin n → CanFrame) (l : List (Fin n)) (s : SafeSystem K n) :
    l.foldl (fun s i => (send env i (frame i) s).2) s =
      { s with
        writes := s.writes + l.length
        bus := s.bus ++ l.map fun i => .own i (frame i) } := by
  induction l generalizing s with
  | nil => simp
  | cons i l ih =>
    rw [List.foldl_cons, ih]
    simp [send, Nat.add_comm, Nat.add_left_comm]

/-- A `for` over the joints attempts every frame, whichever of them fail. -/
theorem send_each_eq (frame : Fin n → CanFrame) (s : SafeSystem K n) :
    send_each env frame s = { s with writes := s.writes + n, bus := s.bus ++ each frame } := by
  rw [send_each, foldl_send, List.length_finRange]
  rfl

end Send

variable {K : Type} [Field K] [LinearOrder K] {n : Nat} (c : Component K n) (env : Env)

/-- `s'` is `s` with `rounds` complete rounds of zero speed on the bus. -/
structure Braking (s : SafeSystem K n) (rounds : Nat) (s' : SafeSystem K n) : Prop where
  keeps : Keeps s s'
  joints : s'.joints = s.joints
  heard : s'.heard = s.heard
  handed : s'.handed = s.handed
  drains : s'.drains = s.drains
  readings : s.readings ≤ s'.readings
  bus : s'.bus =
    s.bus ++ (List.replicate rounds (each fun i => zero_speed (c.joint i))).flatten

theorem Braking.refl (s : SafeSystem K n) : Braking c s 0 s :=
  ⟨Keeps.refl s, rfl, rfl, rfl, rfl, le_rfl, by simp⟩

/-- What one round of the brake loop leaves, whether or not it is the last. -/
def braked (s : SafeSystem K n) : SafeSystem K n :=
  (now env (send_each env (fun i => zero_speed (c.joint i)) s)).2

theorem Braking.round {s t : SafeSystem K n} {rounds : Nat} (h : Braking c s rounds t) :
    Braking c s (rounds + 1) (braked c env t) := by
  simp only [braked, now, send_each_eq]
  refine ⟨⟨h.keeps.socket, h.keeps.active, h.keeps.stopped⟩, h.joints, h.heard, h.handed,
    h.drains, Nat.le_succ_of_le h.readings, ?_⟩
  simp only [h.bus, List.replicate_succ', List.flatten_append, List.flatten_cons,
    List.flatten_nil, List.append_nil, List.append_assoc]

theorem brake_round_cases (until_ : Nat) (s : SafeSystem K n) :
    brake_round c env until_ s = .inl (braked c env s) ∨
    (brake_round c env until_ s = .inr (braked c env s) ∧
      env.clock.reading s.readings < until_) := by
  simp only [brake_round, braked, now, send_each_eq]
  split
  · exact Or.inl rfl
  · rename_i h
    refine Or.inr ⟨rfl, ?_⟩
    have hp : 0 < kBrakePeriod * nsPerMs := by decide
    omega

theorem braked_readings (s : SafeSystem K n) :
    (braked c env s).readings = s.readings + 1 := by
  simp only [braked, now, send_each_eq]

/-- The brake loop ends, after at least one complete round of zero speed. -/
theorem brake_loop (until_ : Nat) (s : SafeSystem K n) :
    ∃ rounds s', loop (brake_round c env until_) (env.clock.reach until_ + 1) s = some s' ∧
      Braking c s (rounds + 1) s' := by
  have hround : ∀ t t', brake_round c env until_ t = .inr t' →
      t' = braked c env t ∧ env.clock.reading t.readings < until_ := by
    intro t t' h
    rcases brake_round_cases c env until_ t with hl | ⟨hr, hlt⟩
    · rw [hl] at h; cases h
    · rw [hr] at h; cases h; exact ⟨rfl, hlt⟩
  obtain ⟨s', hs'⟩ := loop_until_deadline env.clock until_ SafeSystem.readings
    (brake_round c env until_)
    (by
      intro t t' h
      obtain ⟨rfl, hlt⟩ := hround t t' h
      exact ⟨t.readings, le_rfl, by rw [braked_readings]; omega, hlt⟩) s
  have hinv := loop_inv (brake_round c env until_)
    (fun t => ∃ rounds, Braking c s rounds t)
    (fun t => ∃ rounds, Braking c s (rounds + 1) t)
    (by
      rintro t t' ⟨rounds, hb⟩ h
      obtain ⟨rfl, _⟩ := hround t t' h
      exact ⟨rounds + 1, hb.round c env⟩)
    (by
      rintro t t' ⟨rounds, hb⟩ h
      rcases brake_round_cases c env until_ t with hl | ⟨hr, _⟩
      · rw [hl] at h; cases h; exact ⟨rounds, hb.round c env⟩
      · rw [hr] at h; cases h)
    _ s s' ⟨0, Braking.refl c s⟩ hs'
  obtain ⟨rounds, hb⟩ := hinv
  exact ⟨rounds, s', hs', hb⟩

/-- The frames of a complete stop. -/
def stop_frames (rounds : Nat) : List (Bus n) :=
  (List.replicate (rounds + 1) (each fun i => zero_speed (c.joint i))).flatten ++
    each fun i => zero_current (c.joint i)

/-- What `stop_motors` does: both flags and every `releasing`, and on the bus the
complete stop unless there is no socket. -/
structure Stopping (s s' : SafeSystem K n) : Prop where
  socket : s'.socket = s.socket
  active : s'.active = s.active
  stopped : s'.stopped = true
  joints : s'.joints = fun i => { s.joints i with releasing := false }
  heard : s'.heard = s.heard
  handed : s'.handed = s.handed
  drains : s'.drains = s.drains
  readings : s.readings ≤ s'.readings
  silent : s.socket = false → s'.bus = s.bus
  frames : s.socket = true → ∃ rounds, s'.bus = s.bus ++ stop_frames c rounds

/-- The state in which the brake loop of `stop_motors` starts. -/
def stopping (s : SafeSystem K n) : SafeSystem K n :=
  { s with
    stopped := true
    joints := fun i => { s.joints i with releasing := false }
    readings := s.readings + 1 }

/-- With a socket, `stop_motors` is the brake loop followed by the releases. -/
theorem stop_motors_eq {s s₁ : SafeSystem K n} (hs : s.socket = true)
    (hloop : loop (brake_round c env (env.clock.reading s.readings + c.brake_time * nsPerMs))
      (env.clock.reach (env.clock.reading s.readings + c.brake_time * nsPerMs) + 1)
      (stopping s) = some s₁) :
    stop_motors c env s =
      { s₁ with
        writes := s₁.writes + n
        bus := s₁.bus ++ each fun i => zero_current (c.joint i) } := by
  simp only [stop_motors, now]
  rw [if_neg (by rw [hs]; decide)]
  change send_each env (fun i => zero_current (c.joint i))
    ((loop (brake_round c env _) (env.clock.reach _ + 1) (stopping s)).getD (stopping s)) = _
  rw [hloop, Option.getD_some, send_each_eq]

theorem stop_motors_spec (s : SafeSystem K n) : Stopping c s (stop_motors c env s) := by
  cases hs : s.socket with
  | false =>
    have he : stop_motors c env s = { s with
        stopped := true
        joints := fun i => { s.joints i with releasing := false } } := by
      simp only [stop_motors, hs, ↓reduceIte]
    rw [he]
    exact ⟨rfl, rfl, rfl, rfl, rfl, rfl, rfl, le_rfl, fun _ => rfl,
      fun h => absurd (hs.symm.trans h) (by decide)⟩
  | true =>
    obtain ⟨rounds, s₁, hloop, hb⟩ := brake_loop c env
      (env.clock.reading s.readings + c.brake_time * nsPerMs) (stopping s)
    rw [stop_motors_eq c env hs hloop]
    refine ⟨hb.keeps.socket, hb.keeps.active, hb.keeps.stopped, hb.joints, hb.heard, hb.handed,
      hb.drains, (Nat.le_succ _).trans hb.readings, ?_, ?_⟩
    · intro h; exact absurd (hs.symm.trans h) (by decide)
    · intro _
      refine ⟨rounds, ?_⟩
      simp only [hb.bus, stop_frames, List.append_assoc]
      rfl

theorem hear_control {K : Type} (t : Nat) (frame : RxFrame) (j : Joint K × Bool) :
    SameControl j.1 (hear t frame j).1 := ⟨rfl, rfl, rfl, rfl, rfl, rfl, rfl⟩

theorem absorb_control (t : Nat) (frames : List RxFrame) (joints : Fin n → Joint K × Bool)
    (i : Fin n) : SameControl (joints i).1 (frames.foldl (absorb c t) joints i).1 := by
  induction frames generalizing joints with
  | nil => exact SameControl.refl _
  | cons frame frames ih =>
    rw [List.foldl_cons]
    refine SameControl.trans ?_ (ih (absorb c t joints frame))
    by_cases hf : frame.of (c.joint i) = true
    · simp only [absorb, hf, ↓reduceIte]
      exact hear_control t frame (joints i)
    · simp only [absorb, hf, Bool.false_eq_true, ↓reduceIte]
      exact SameControl.refl _

/-- The state after a drain of an open socket. -/
def drained (s : SafeSystem K n) : SafeSystem K n :=
  let t := env.clock.reading s.readings
  let frames := (env.batch s.drains).frames
  { s with
    readings := s.readings + 1
    drains := s.drains + 1
    heard := s.heard ++ [⟨t, frames⟩]
    joints := fun i => (frames.foldl (absorb c t) (fun i => (s.joints i, false)) i).1 }

theorem drain_status_open {s : SafeSystem K n} (h : s.socket = true) :
    drain_status c env s = (!((env.batch s.drains).failed && s.active), drained c env s) := by
  simp only [drain_status, now, h, Bool.true_eq_false, ↓reduceIte, drained]

theorem drain_status_closed {s : SafeSystem K n} (h : s.socket = false) :
    drain_status c env s = (true, s) := by
  simp only [drain_status, h, ↓reduceIte]

theorem drained_follows (s : SafeSystem K n) : Follows c env s (drained c env s) := by
  refine ⟨fun h i => (h i).drain c _ _, fun i h => ?_, fun h => ?_, Nat.le_succ _⟩
  · exact absorb_heard c _ _ (fun i => (s.joints i, false)) i h
  · simp only [Supplied, drained, List.map_append, List.map_cons, List.map_nil, List.range_succ]
    rw [show s.heard.map (·.frames) = _ from h]

theorem drained_looks (s : SafeSystem K n) : Looks c env s (drained c env s) :=
  ⟨⟨rfl, rfl, rfl⟩, Sends.of_bus_eq rfl, rfl, Nat.le_succ _,
    fun i => absorb_control c _ _ (fun i => (s.joints i, false)) i, drained_follows c env s⟩

theorem drain_status_looks (s : SafeSystem K n) : Looks c env s (drain_status c env s).2 := by
  cases h : s.socket with
  | true => rw [drain_status_open c env h]; exact drained_looks c env s
  | false => rw [drain_status_closed c env h]; exact Watches.refl _ s

/-- While the component is not active, no socket error counts. -/
theorem drain_status_idle {s : SafeSystem K n} (h : s.active = false) :
    (drain_status c env s).1 = true := by
  cases hs : s.socket with
  | true => simp [drain_status_open c env hs, h]
  | false => rw [drain_status_closed c env hs]

theorem motors_healthy_looks (s : SafeSystem K n) : Looks c env s (motors_healthy c env s).2 := by
  have hd := drain_status_looks c env s
  unfold motors_healthy
  by_cases hs : s.socket = false
  · rw [if_pos hs]; exact Watches.refl _ s
  · rw [if_neg hs]
    rcases hp : drain_status c env s with ⟨ok, t⟩
    rw [hp] at hd
    dsimp only
    split
    · exact hd
    · split
      · exact hd
      · exact hd.trans (now_looks env t)

theorem check_effort_same {t : Nat} {p : JointParams K} {j j' : Joint K}
    (h : check_effort t p j = some j') : SameControl j j' ∧ SameStatus j j' := by
  unfold check_effort at h
  split at h
  · cases h; exact ⟨SameControl.refl _, SameStatus.refl _⟩
  · split at h
    · cases h; exact ⟨⟨rfl, rfl, rfl, rfl, rfl, rfl, rfl⟩, ⟨rfl, rfl, rfl, rfl, rfl, rfl⟩⟩
    · split at h
      · cases h; exact ⟨⟨rfl, rfl, rfl, rfl, rfl, rfl, rfl⟩, ⟨rfl, rfl, rfl, rfl, rfl, rfl⟩⟩
      · split at h
        · cases h
        · cases h; exact ⟨SameControl.refl _, SameStatus.refl _⟩

/-- The stall guard changes its own two members only. -/
theorem check_efforts_same (t : Nat) (l : List (Fin n)) (joints : Fin n → Joint K) (i : Fin n) :
    SameControl (joints i) ((check_efforts c t l joints).2 i) ∧
      SameStatus (joints i) ((check_efforts c t l joints).2 i) := by
  induction l generalizing joints with
  | nil => exact ⟨SameControl.refl _, SameStatus.refl _⟩
  | cons j l ih =>
    rw [check_efforts]
    cases hc : check_effort t (c.joint j) (joints j) with
    | none => exact ⟨SameControl.refl _, SameStatus.refl _⟩
    | some joint =>
      obtain ⟨hcontrol, hstatus⟩ := ih (Function.update joints j joint)
      by_cases hij : i = j
      · subst hij
        rw [Function.update_self] at hcontrol hstatus
        obtain ⟨h1, h2⟩ := check_effort_same hc
        exact ⟨h1.trans hcontrol, h2.trans hstatus⟩
      · rw [Function.update_of_ne hij] at hcontrol hstatus
        exact ⟨hcontrol, hstatus⟩

theorem efforts_ok_looks (s : SafeSystem K n) : Looks c env s (efforts_ok c env s).2 :=
  ⟨⟨rfl, rfl, rfl⟩, Sends.of_bus_eq rfl, rfl, Nat.le_succ _,
    fun i => (check_efforts_same c _ _ s.joints i).1,
    Follows.of_same rfl rfl fun i => (check_efforts_same c _ _ s.joints i).2⟩

theorem recent_looks (i : Fin n) (s : SafeSystem K n) : Looks c env s (recent c env i s).2 := by
  unfold recent
  split
  · exact now_looks env s
  · exact Watches.refl _ s

theorem all_recent_looks (l : List (Fin n)) (s : SafeSystem K n) :
    Looks c env s (all_recent c env l s).2 := by
  induction l generalizing s with
  | nil => exact Watches.refl _ s
  | cons i l ih =>
    have hr := recent_looks c env i s
    rw [all_recent]
    rcases hp : recent c env i s with ⟨ok, t⟩
    rw [hp] at hr
    dsimp only
    split
    · exact hr.trans (ih t)
    · exact hr

theorem check_status_looks (l : List (Fin n)) (ok : Bool) (s : SafeSystem K n) :
    Looks c env s (check_status c env l ok s).2 := by
  induction l generalizing ok s with
  | nil => exact Watches.refl _ s
  | cons i l ih => exact (recent_looks c env i s).trans (ih _ _)

/-- A round of the waiting loop only looks; one that is not the last has seen a
reading before the deadline. -/
theorem wait_round_spec (deadline : Nat) (s : SafeSystem K n) :
    (∃ b, wait_round c env deadline s = .inl b ∧ Looks c env s b.2) ∨
    (∃ t, wait_round c env deadline s = .inr t ∧ Looks c env s t ∧
      ∃ r, s.readings ≤ r ∧ r < t.readings ∧ env.clock.reading r < deadline) := by
  have hd := drain_status_looks c env s
  unfold wait_round
  rcases hp : drain_status c env s with ⟨ok, t⟩
  rw [hp] at hd
  dsimp only
  split
  · exact Or.inl ⟨_, rfl, hd⟩
  · have ha := all_recent_looks c env (List.finRange n) t
    rcases hq : all_recent c env (List.finRange n) t with ⟨all, u⟩
    rw [hq] at ha
    dsimp only
    split
    · exact Or.inl ⟨_, rfl, hd.trans ha⟩
    · have hu := hd.trans ha
      by_cases hlt : (now env u).1 ≥ deadline
      · rw [if_pos hlt]
        exact Or.inl ⟨_, rfl, hu.trans (now_looks env u)⟩
      · rw [if_neg hlt]
        exact Or.inr ⟨_, rfl, hu.trans (now_looks env u), u.readings, hu.readings,
          Nat.lt_succ_self _, not_le.mp hlt⟩

theorem wait_loop (deadline : Nat) (s : SafeSystem K n) :
    ∃ b, loop (wait_round c env deadline) (env.clock.reach deadline + 1) s = some b ∧
      Looks c env s b.2 := by
  obtain ⟨b, hb⟩ := loop_until_deadline env.clock deadline SafeSystem.readings
    (wait_round c env deadline)
    (by
      intro t t' h
      rcases wait_round_spec c env deadline t with ⟨b, hl, _⟩ | ⟨u, hr, _, hlt⟩
      · rw [hl] at h; cases h
      · rw [hr] at h; cases h; exact hlt) s
  refine ⟨b, hb, ?_⟩
  refine loop_inv (wait_round c env deadline) (fun t => Looks c env s t) (fun b => Looks c env s b.2)
    ?_ ?_ _ s b (Watches.refl _ s) hb
  · intro t t' hi h
    rcases wait_round_spec c env deadline t with ⟨b, hl, _⟩ | ⟨u, hr, hlook, _⟩
    · rw [hl] at h; cases h
    · rw [hr] at h; cases h; exact hi.trans hlook
  · intro t b hi h
    rcases wait_round_spec c env deadline t with ⟨b', hl, hlook⟩ | ⟨u, hr, _, _⟩
    · rw [hl] at h; cases h; exact hi.trans hlook
    · rw [hr] at h; cases h

theorem wait_for_status_looks (timeout : Nat) (s : SafeSystem K n) :
    Looks c env s (wait_for_status c env timeout s).2 := by
  unfold wait_for_status
  simp only [now]
  obtain ⟨⟨ok, t⟩, hloop, hlook⟩ := wait_loop c env
    (env.clock.reading s.readings + timeout * nsPerMs) (now env s).2
  have hl : Looks c env s t := (now_looks env s).trans hlook
  change loop _ _ { s with readings := s.readings + 1 } = _ at hloop
  rw [hloop]
  cases ok with
  | true => exact hl.trans (check_status_looks c env _ _ t)
  | false => exact hl

/-- The frames of `zero_joints`: zero current and a temporary origin. -/
def Zeroing (b : Bus n) : Prop :=
  ∃ i, b = .own i (zero_current (c.joint i)) ∨ b = .own i (set_origin (c.joint i))

theorem send_origins_watches (l : List (Fin n)) (sent : Fin n → Nat) (s : SafeSystem K n) :
    Watches c env (Zeroing c) s (send_origins c env l sent s).2.2 := by
  induction l generalizing sent s with
  | nil => exact Watches.refl _ s
  | cons i l ih =>
    unfold send_origins
    split
    · have h1 := send_watches (c := c) env (Zeroing c) i (zero_current (c.joint i)) s ⟨i, Or.inl rfl⟩
      have h2 := send_watches (c := c) env (Zeroing c) i (set_origin (c.joint i))
        (send env i (zero_current (c.joint i)) s).2 ⟨i, Or.inr rfl⟩
      have h12 := h1.trans h2
      rcases hr : send env i (zero_current (c.joint i)) s with ⟨released, t⟩
      rw [hr] at h12
      rcases hz : send env i (set_origin (c.joint i)) t with ⟨zeroed, u⟩
      rw [hz] at h12
      simp only [hz]
      by_cases hs : released = false ∨ zeroed = false
      · rw [if_pos hs]
        exact h12
      · rw [if_neg hs]
        exact (h12.trans (now_looks env u).watches).trans (ih _ _)
    · exact ih _ _

theorem zero_round_spec (sent : Fin n → Nat) (deadline : Nat) (s : SafeSystem K n) :
    (∃ b, zero_round c env sent deadline s = .inl b ∧ Looks c env s b.2) ∨
    (∃ t, zero_round c env sent deadline s = .inr t ∧ Looks c env s t ∧
      ∃ r, s.readings ≤ r ∧ r < t.readings ∧ env.clock.reading r < deadline) := by
  have hd := drain_status_looks c env s
  unfold zero_round
  rcases hp : drain_status c env s with ⟨ok, t⟩
  rw [hp] at hd
  dsimp only
  split
  · exact Or.inl ⟨_, rfl, hd⟩
  · split
    · exact Or.inl ⟨_, rfl, hd⟩
    · by_cases hlt : (now env t).1 ≥ deadline
      · rw [if_pos hlt]
        exact Or.inl ⟨_, rfl, hd.trans (now_looks env t)⟩
      · rw [if_neg hlt]
        exact Or.inr ⟨_, rfl, hd.trans (now_looks env t), t.readings, hd.readings,
          Nat.lt_succ_self _, not_le.mp hlt⟩

theorem zero_loop (sent : Fin n → Nat) (deadline : Nat) (s : SafeSystem K n) :
    ∃ b, loop (zero_round c env sent deadline) (env.clock.reach deadline + 1) s = some b ∧
      Looks c env s b.2 := by
  obtain ⟨b, hb⟩ := loop_until_deadline env.clock deadline SafeSystem.readings
    (zero_round c env sent deadline)
    (by
      intro t t' h
      rcases zero_round_spec c env sent deadline t with ⟨b, hl, _⟩ | ⟨u, hr, _, hlt⟩
      · rw [hl] at h; cases h
      · rw [hr] at h; cases h; exact hlt) s
  refine ⟨b, hb, ?_⟩
  refine loop_inv (zero_round c env sent deadline) (fun t => Looks c env s t) (fun b => Looks c env s b.2)
    ?_ ?_ _ s b (Watches.refl _ s) hb
  · intro t t' hi h
    rcases zero_round_spec c env sent deadline t with ⟨b, hl, _⟩ | ⟨u, hr, hlook, _⟩
    · rw [hl] at h; cases h
    · rw [hr] at h; cases h; exact hi.trans hlook
  · intro t b hi h
    rcases zero_round_spec c env sent deadline t with ⟨b', hl, hlook⟩ | ⟨u, hr, _, _⟩
    · rw [hl] at h; cases h; exact hi.trans hlook
    · rw [hr] at h; cases h

theorem zero_joints_watches (s : SafeSystem K n) :
    Watches c env (Zeroing c) s (zero_joints c env s).2 := by
  have hd := (drain_status_looks c env s).watches (P := Zeroing c)
  unfold zero_joints
  rcases hp : drain_status c env s with ⟨ok, t⟩
  rw [hp] at hd
  dsimp only
  split
  · exact hd
  · have ho := hd.trans (send_origins_watches c env (List.finRange n) (fun _ => 0) t)
    rcases hq : send_origins c env (List.finRange n) (fun _ => 0) t with ⟨sentAll, sent, u⟩
    rw [hq] at ho
    dsimp only
    split
    · exact ho
    · split
      · exact ho
      · simp only [now]
        obtain ⟨b, hloop, hlook⟩ := zero_loop c env sent
          (env.clock.reading u.readings + kActivationWait * nsPerMs) (now env u).2
        simp only [now] at hloop
        rw [hloop]
        exact (ho.trans (now_looks env u).watches).trans hlook.watches

/-- The state between the status check and the zeroing: old commands are forgotten and
`stopped_` is cleared. -/
def cleared (s : SafeSystem K n) : SafeSystem K n :=
  { s with joints := fun i => (s.joints i).forget, stopped := false }

/-- The state after a successful activation. -/
def activated (s : SafeSystem K n) : SafeSystem K n :=
  { s with
    joints := fun i => { s.joints i with
      target :=
        if (c.joint i).position_commanded then measured_position (c.joint i) (s.joints i)
        else .nan }
    active := true }

/-- The four ways through `on_activate`. -/
inductive Activation (upstream : CallbackReturn) (s : SafeSystem K n) :
    CallbackReturn × SafeSystem K n → Prop
  | refused (h : upstream ≠ .SUCCESS) : Activation upstream s (upstream, s)
  | silent {t : SafeSystem K n} (hu : upstream = .SUCCESS)
      (hw : wait_for_status c env kActivationWait s = (false, t)) :
      Activation upstream s (.ERROR, t)
  | not_zeroed {t v : SafeSystem K n} (hu : upstream = .SUCCESS)
      (hw : wait_for_status c env kActivationWait s = (true, t))
      (hz : zero_joints c env (cleared t) = (false, v)) :
      Activation upstream s (.ERROR, stop_motors c env v)
  | success {t v : SafeSystem K n} (hu : upstream = .SUCCESS)
      (hw : wait_for_status c env kActivationWait s = (true, t))
      (hz : zero_joints c env (cleared t) = (true, v)) :
      Activation upstream s (.SUCCESS, activated c v)

theorem on_activate_cases (upstream : CallbackReturn) (s : SafeSystem K n) :
    Activation c env upstream s (on_activate c env upstream s) := by
  unfold on_activate
  by_cases hu : upstream ≠ .SUCCESS
  · rw [if_pos hu]
    exact .refused hu
  · rw [if_neg hu]
    rcases hw : wait_for_status c env kActivationWait s with ⟨_ | _, t⟩
    · exact .silent (not_not.mp hu) hw
    · rcases hz : zero_joints c env (cleared t) with ⟨_ | _, v⟩
      · simp only [cleared] at hz
        simp only [hz, Bool.true_eq_false, ↓reduceIte]
        exact .not_zeroed (not_not.mp hu) hw hz
      · simp only [cleared] at hz
        simp only [hz, Bool.true_eq_false, ↓reduceIte]
        exact .success (not_not.mp hu) hw hz

/-- The zeroing of an activation, seen from before the activation. -/
theorem activation_watches {s t v : SafeSystem K n} {ready ok : Bool}
    (hw : wait_for_status c env kActivationWait s = (ready, t))
    (hz : zero_joints c env (cleared t) = (ok, v)) :
    v.socket = s.socket ∧ v.active = s.active ∧ v.stopped = false ∧ Sends (Zeroing c) s v ∧
      v.handed = s.handed := by
  have h1 := wait_for_status_looks c env kActivationWait s
  have h2 := zero_joints_watches c env (cleared t)
  rw [hw] at h1
  rw [hz] at h2
  refine ⟨h2.keeps.socket.trans h1.keeps.socket, h2.keeps.active.trans h1.keeps.active,
    h2.keeps.stopped, ?_, h2.handed.trans h1.handed⟩
  have hsend : Sends (Zeroing c) s (cleared t) := h1.watches.sends.trans (Sends.of_bus_eq rfl)
  exact hsend.trans h2.sends

end IotRobot.Safe
