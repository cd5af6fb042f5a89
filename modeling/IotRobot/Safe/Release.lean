import IotRobot.Safe.Twins
import IotRobot.Safe.StopInvariant

/-!
# The release of an abandoned joint

When the last controller lets go of a joint of an active component, the motor is braked
and then released, one frame a `write`. The frames follow from the clock alone: zero speed
as long as the brake time runs, one release, then silence. Commands from before play no
part, then or later.
-/

namespace IotRobot.Safe

open Lib Can

set_option autoImplicit false

variable {K : Type} [Field K] [LinearOrder K] {n : Nat} (c : Component K n) (env : Env)

/-- The loop of a mode switch leaves an active component active, takes its time, and does
to each joint what one visit does, at a reading of its own. -/
theorem switch_fold (starts stops : List String) (l : List (Fin n)) (hl : l.Nodup)
    (s : SafeSystem K n) :
    let s' := l.foldl (switch_joint c env starts stops) s
    s'.active = s.active ∧ s.readings ≤ s'.readings ∧
    (∀ i, i ∉ l → s'.joints i = s.joints i) ∧
    ∀ i ∈ l, ∃ r, s.readings ≤ r ∧
      s'.joints i = (s.joints i).switched (c.joint i)
        (starts.contains ((c.joint i).name ++ "/" ++ HW_IF_POSITION))
        (has_prefix_in starts ((c.joint i).name ++ "/"))
        (has_prefix_in stops ((c.joint i).name ++ "/")) s.active
        (env.clock.reading r + c.brake_time * nsPerMs) ∧
      (has_prefix_in stops ((c.joint i).name ++ "/") &&
        !has_prefix_in starts ((c.joint i).name ++ "/") && s.active → r < s'.readings) := by
  induction l generalizing s with
  | nil => exact ⟨rfl, le_rfl, fun _ _ => rfl, fun i hi => absurd hi List.not_mem_nil⟩
  | cons i l ih =>
    obtain ⟨hi, hl⟩ := List.nodup_cons.mp hl
    have heq := switch_joint_eq c env starts stops s i
    have hactive : (switch_joint c env starts stops s i).active = s.active := by rw [heq]
    have hother : ∀ k, k ≠ i → (switch_joint c env starts stops s i).joints k = s.joints k := by
      intro k hk
      rw [heq]
      exact Function.update_of_ne hk ..
    have hreadings : s.readings ≤ (switch_joint c env starts stops s i).readings := by
      rw [heq]
      show s.readings ≤ if _ then s.readings + 1 else s.readings
      split
      · exact Nat.le_succ _
      · exact le_rfl
    obtain ⟨hact, hread, hrest, hvisited⟩ := ih hl (switch_joint c env starts stops s i)
    refine ⟨hact.trans hactive, hreadings.trans hread, fun k hk => ?_, fun k hk => ?_⟩
    · obtain ⟨hki, hkl⟩ := not_or.mp (List.mem_cons.not.mp hk)
      exact (hrest k hkl).trans (hother k hki)
    · by_cases hki : k = i
      · subst hki
        refine ⟨s.readings, le_rfl, ?_, fun hstop => ?_⟩
        · rw [List.foldl_cons, hrest k hi, heq]
          exact Function.update_self ..
        · refine lt_of_lt_of_le ?_ hread
          rw [heq]
          show s.readings < if _ then s.readings + 1 else s.readings
          rw [if_pos hstop]
          exact Nat.lt_succ_self _
      · obtain ⟨r, hr, hjoint, hlate⟩ := hvisited k ((List.mem_cons.mp hk).resolve_left hki)
        rw [hactive, hother k hki] at hjoint
        rw [hactive] at hlate
        exact ⟨r, hreadings.trans hr, hjoint, hlate⟩

/-- The frames of the non-blocking stops that one `write` sends. -/
def released_frames (joints : Fin n → Joint K) (t : Nat) (l : List (Fin n)) : List (Bus n) :=
  l.flatMap fun i => (release_frames (c.joint i) t (joints i)).map (.own i)

theorem write_fold (dt : K) (t : Nat) (l : List (Fin n)) (hl : l.Nodup) (s : SafeSystem K n) :
    let s' := l.foldl (write_joint c env dt t) s
    s'.bus = s.bus ++ released_frames c s.joints t l ∧ s'.readings = s.readings ∧
      ∀ i, s'.joints i = if i ∈ l then (s.joints i).written (c.joint i) dt t else s.joints i := by
  induction l generalizing s with
  | nil => exact ⟨(List.append_nil _).symm, rfl, fun _ => rfl⟩
  | cons i l ih =>
    obtain ⟨hi, hl⟩ := List.nodup_cons.mp hl
    obtain ⟨hbus, hreadings, hjoints⟩ := ih hl (write_joint c env dt t s i)
    rw [write_joint_eq] at hbus hreadings hjoints
    have hframes : released_frames c
        (Function.update s.joints i ((s.joints i).written (c.joint i) dt t)) t l =
        released_frames c s.joints t l := by
      refine List.flatMap_congr fun k hk => ?_
      have hki : k ≠ i := fun h => hi (h ▸ hk)
      rw [Function.update_of_ne hki]
    simp only [hframes, List.append_assoc] at hbus
    refine ⟨?_, ?_, fun k => ?_⟩
    · rw [List.foldl_cons, write_joint_eq]
      exact hbus
    · rw [List.foldl_cons, write_joint_eq]
      exact hreadings
    · rw [List.foldl_cons, write_joint_eq]
      refine (hjoints k).trans ?_
      by_cases hk : k = i
      · subst hk
        rw [if_neg hi, if_pos List.mem_cons_self]
        exact Function.update_self ..
      · simp only [List.mem_cons, hk, false_or, Function.update_of_ne hk]

/-- The frames on the bus that reach a joint's motor: the component's own for it, and those
of the upstream plugin with its CAN ID. -/
def frames_for (i : Fin n) (l : List (Bus n)) : List CanFrame :=
  l.filterMap fun b => match b with
    | .own j frame => if j = i then some frame else none
    | .upstream frame => if frame.id &&& 0xFF = (c.joint i).can_id then some frame else none

theorem frames_for_append (i : Fin n) (l m : List (Bus n)) :
    frames_for c i (l ++ m) = frames_for c i l ++ frames_for c i m := List.filterMap_append ..

theorem frames_for_own (i j : Fin n) (frames : List CanFrame) :
    frames_for c i (frames.map (.own j)) = if j = i then frames else [] := by
  rw [frames_for, List.filterMap_map]
  by_cases hj : j = i
  · subst hj
    rw [if_pos rfl]
    refine Eq.trans (List.filterMap_congr fun frame _ => ?_) List.filterMap_some
    exact if_pos rfl
  · rw [if_neg hj]
    exact List.filterMap_eq_nil_iff.mpr fun frame _ => if_neg hj

/-- Of the stops that a `write` goes on with, its motor gets the frame of its own. -/
theorem frames_for_released (i : Fin n) (joints : Fin n → Joint K) (t : Nat) (l : List (Fin n))
    (hl : l.Nodup) : frames_for c i (released_frames c joints t l) =
      if i ∈ l then release_frames (c.joint i) t (joints i) else [] := by
  induction l with
  | nil => rfl
  | cons j l ih =>
    obtain ⟨hj, hl⟩ := List.nodup_cons.mp hl
    rw [released_frames, List.flatMap_cons, frames_for_append, frames_for_own]
    rw [← released_frames, ih hl]
    by_cases hji : j = i
    · subst hji
      rw [if_pos rfl, if_neg hj, if_pos List.mem_cons_self, List.append_nil]
    · have hij : i ≠ j := fun h => hji h.symm
      simp only [hji, ↓reduceIte, List.nil_append, List.mem_cons, hij, false_or]

/-- The interfaces that controllers have claimed after an event. -/
def claims_after (claims : List String) : Event K n → List String
  | .perform_command_mode_switch starts stops .OK =>
    claims.filter (fun name => !stops.contains name) ++ starts
  | _ => claims

/-- No controller has claimed an interface of the joint. -/
def Unclaimed (p : JointParams K) (claims : List String) : Prop :=
  has_prefix_in claims (p.name ++ "/") = false

/-- The upstream plugin sends nothing for a joint whose interfaces are unclaimed or whose
commands are NaN. -/
def UpstreamQuiet (claims : List String) (s : SafeSystem K n) : Event K n → Prop
  | .write period _ frames =>
    ∀ i, (Unclaimed (c.joint i) claims ∨
        ∀ h ∈ handed_on (c.joint i) i (slew_period period) (s.joints i), h.value = .nan) →
      ∀ frame ∈ frames, frame.id &&& 0xFF ≠ (c.joint i).can_id
  | _ => True

/-- The managed component together with the claims of the controllers. -/
structure Controlled (K : Type) (n : Nat) where
  managed : Managed K n := {}
  claims : List String := []

/-- One event of a run in which the upstream plugin keeps to its part. -/
def next_claimed (x : Controlled K n) (e : Event K n) (x' : Controlled K n) : Prop :=
  next c env x.managed e x'.managed ∧ x'.claims = claims_after x.claims e ∧
    UpstreamQuiet c x.claims x.managed.system e

theorem run_claimed {x x' : Controlled K n} {es : List (Event K n)}
    (hr : Run (next_claimed c env) x es x') : Run (next c env) x.managed es x'.managed := by
  induction hr with
  | nil => exact .nil
  | snoc _ hn ih => exact ih.snoc hn.1

/-- A mode switch starts, or stops, an interface of the joint. -/
def StartsJoint (i : Fin n) (e : Event K n) : Prop :=
  ∃ starts stops, e = .perform_command_mode_switch starts stops .OK ∧
    has_prefix_in starts ((c.joint i).name ++ "/") = true

def StopsJoint (i : Fin n) (e : Event K n) : Prop :=
  ∃ starts stops, e = .perform_command_mode_switch starts stops .OK ∧
    has_prefix_in stops ((c.joint i).name ++ "/") = true

/-- An event until the joint is started again, stopped again or the component stops. -/
def next_abandoned (i : Fin n) (x : Controlled K n) (e : Event K n) (x' : Controlled K n) : Prop :=
  next_claimed c env x e x' ∧ next_active c env x.managed e x'.managed ∧
    ¬ StartsJoint c i e ∧ ¬ StopsJoint c i e

/-- An event until the joint is stopped by a mode switch or the component stops. -/
def next_restarted (i : Fin n) (x : Controlled K n) (e : Event K n) (x' : Controlled K n) : Prop :=
  next_claimed c env x e x' ∧ next_active c env x.managed e x'.managed ∧ ¬ StopsJoint c i e

/-- The time of the `write` that the event is. -/
def write_time (s : SafeSystem K n) : Event K n → List Nat
  | .write _ _ _ => [env.clock.reading s.readings]
  | _ => []

/-- The times of the `write`s of a run from `m`. -/
def write_times (m : Managed K n) : List (Event K n) → List Nat
  | [] => []
  | e :: es => write_time env m.system e ++ write_times (perform c env m e) es

/-- Zero speed at every `write` before `release_at`, zero current at the first one that is
not, then nothing. -/
def release_sequence (p : JointParams K) (release_at : Nat) (times : List Nat) : List CanFrame :=
  (times.filter fun t => decide (t < release_at)).map (fun _ => zero_speed p) ++
    ((times.filter fun t => decide (release_at ≤ t)).take 1).map fun _ => zero_current p

/-- What one event of an active phase does to the bus and to the release of a joint. -/
structure Effect (i : Fin n) (s s' : SafeSystem K n) (e : Event K n) : Prop where
  readings : s.readings ≤ s'.readings
  release_at : ¬ StopsJoint c i e → (s'.joints i).release_at = (s.joints i).release_at
  releasing : ¬ StartsJoint c i e → ¬ StopsJoint c i e → (s'.joints i).releasing =
    ((s.joints i).releasing && (write_time env s e).all fun t => decide (t < (s.joints i).release_at))
  restarts : (s.joints i).releasing = false → ¬ StopsJoint c i e →
    (s'.joints i).releasing = false
  bus : ∃ own upstream, s'.bus = s.bus ++ own ++ upstream.map .upstream ∧
    frames_for c i own =
      (write_time env s e).flatMap (fun t => release_frames (c.joint i) t (s.joints i)) ∧
    (∀ period r frames, e = .write period r frames → upstream = frames) ∧
    ((∀ period r frames, e ≠ .write period r frames) → upstream = [])

omit [Field K] [LinearOrder K] in
/-- A `write` that is not earlier than the others adds what the release still has to send. -/
theorem release_sequence_snoc (p : JointParams K) (release_at : Nat) (times : List Nat) (t : Nat)
    (hpast : ∀ a ∈ times, a ≤ t) :
    release_sequence p release_at (times ++ [t]) = release_sequence p release_at times ++
      if times.all (fun a => decide (a < release_at)) then
        [if t < release_at then zero_speed p else zero_current p] else [] := by
  unfold release_sequence
  simp only [List.filter_append, List.filter_singleton, List.map_append]
  by_cases hall : times.all (fun a => decide (a < release_at)) = true
  · rw [if_pos hall]
    have hnone : times.filter (fun a => decide (release_at ≤ a)) = [] := by
      refine List.filter_eq_nil_iff.mpr fun a ha h => ?_
      have hlt := of_decide_eq_true (List.all_eq_true.mp hall a ha)
      have hle := of_decide_eq_true h
      omega
    rw [hnone]
    by_cases ht : t < release_at
    · simp [ht, not_le.mpr ht]
    · simp [ht, not_lt.mp ht]
  · rw [if_neg hall]
    obtain ⟨a, ha, hlate⟩ : ∃ a ∈ times, release_at ≤ a := by
      by_contra hnot
      refine hall (List.all_eq_true.mpr fun a ha => decide_eq_true ?_)
      by_contra hlate
      exact hnot ⟨a, ha, not_lt.mp hlate⟩
    have ht : release_at ≤ t := hlate.trans (hpast a ha)
    have hsome : times.filter (fun a => decide (release_at ≤ a)) ≠ [] := fun h => by
      have hmem : a ∈ times.filter (fun a => decide (release_at ≤ a)) :=
        List.mem_filter.mpr ⟨ha, decide_eq_true hlate⟩
      rw [h] at hmem
      cases hmem
    have htake : ∀ (l : List Nat), l ≠ [] → (l ++ [t]).take 1 = l.take 1 := by
      intro l hl
      cases l with
      | nil => exact absurd rfl hl
      | cons x l => rfl
    rw [decide_eq_false (not_lt.mpr ht), decide_eq_true ht]
    simp [htake _ hsome]

/-- A `read`, a command or a refused switch does nothing to releases. -/
theorem Effect.of_same {i : Fin n} {s s' : SafeSystem K n} {e : Event K n}
    (hr : s.readings ≤ s'.readings) (hb : s'.bus = s.bus)
    (hat : (s'.joints i).release_at = (s.joints i).release_at)
    (hrel : (s'.joints i).releasing = (s.joints i).releasing)
    (hw : ∀ period r frames, e ≠ .write period r frames) : Effect c env i s s' e := by
  have htime : write_time env s e = [] := by
    cases e <;> first | rfl | exact absurd rfl (hw _ _ _)
  refine ⟨hr, fun _ => hat, fun _ _ => ?_, fun h _ => hrel.trans h,
    [], [], ?_, ?_, fun period r frames he => absurd he (hw period r frames), fun _ => rfl⟩
  · rw [hrel, htime]
    exact (Bool.and_true _).symm
  · simpa using hb
  · rw [htime]
    rfl

/-- A switch that the resource manager does not veto restarts the releases of the joints that
it stops and ends those of the joints that it starts. -/
theorem switch_effect (i : Fin n) (starts stops : List String) (s : SafeSystem K n) :
    Effect c env i s (perform_command_mode_switch c env starts stops .OK s).2
      (.perform_command_mode_switch starts stops .OK) := by
  have hsame : (perform_command_mode_switch c env starts stops .OK s).2 =
      (List.finRange n).foldl (switch_joint c env starts stops) s := rfl
  obtain ⟨-, hr, -, hvisited⟩ := switch_fold c env starts stops (List.finRange n)
    (List.nodup_finRange n) s
  obtain ⟨r, -, hjoint, -⟩ := hvisited i (List.mem_finRange i)
  have hbus := (switch_silent c env starts stops .OK s).bus
  rw [hsame] at hbus ⊢
  have hstops : ∀ h : ¬ StopsJoint c i
      (.perform_command_mode_switch starts stops .OK : Event K n),
      has_prefix_in stops ((c.joint i).name ++ "/") = false := fun h =>
    Bool.eq_false_of_not_eq_true fun hp => h ⟨starts, stops, rfl, hp⟩
  have hstarts : ∀ h : ¬ StartsJoint c i
      (.perform_command_mode_switch starts stops .OK : Event K n),
      has_prefix_in starts ((c.joint i).name ++ "/") = false := fun h =>
    Bool.eq_false_of_not_eq_true fun hp => h ⟨starts, stops, rfl, hp⟩
  refine ⟨hr, fun h => ?_, fun hs h => ?_, fun hoff h => ?_, [], [], ?_, rfl,
    fun _ _ _ he => (by cases he), fun _ => rfl⟩
  · rw [hjoint, Joint.switched, hstops h]
    cases has_prefix_in starts ((c.joint i).name ++ "/") <;> rfl
  · rw [hjoint, Joint.switched, hstops h, hstarts hs]
    exact (Bool.and_true _).symm
  · rw [hjoint, Joint.switched, hstops h]
    cases has_prefix_in starts ((c.joint i).name ++ "/") with
    | true => rfl
    | false => exact hoff
  · simpa using hbus

/-- A `write` sends one frame of the joint's release if it has one. -/
theorem write_effect (i : Fin n) (period : K) (upstream : ReturnType) (frames : List CanFrame)
    {s : SafeSystem K n} (ha : s.active = true) :
    Effect c env i s (write c env period upstream frames s).2 (.write period upstream frames) := by
  obtain ⟨hbus, hreadings, hjoints⟩ := write_fold c env (slew_period period)
    (env.clock.reading s.readings) (List.finRange n) (List.nodup_finRange n) (now env s).2
  have hwrite : (write c env period upstream frames s).2 =
      { (List.finRange n).foldl (write_joint c env (slew_period period)
          (env.clock.reading s.readings)) (now env s).2 with
        bus := ((List.finRange n).foldl (write_joint c env (slew_period period)
          (env.clock.reading s.readings)) (now env s).2).bus ++ frames.map .upstream } := by
    simp only [write, ha, Bool.true_eq_false, ↓reduceIte]
    rfl
  have hjoint := hjoints i
  rw [if_pos (List.mem_finRange i)] at hjoint
  rw [hwrite]
  refine ⟨?_, fun _ => ?_, fun _ _ => ?_, fun hoff _ => ?_,
    released_frames c s.joints (env.clock.reading s.readings) (List.finRange n),
    frames, ?_, ?_, fun _ _ _ he => (by cases he; rfl), fun h => absurd rfl (h _ _ _)⟩
  · exact (Nat.le_succ _).trans hreadings.ge
  · exact (congrArg Joint.release_at hjoint).trans rfl
  · refine (congrArg Joint.releasing hjoint).trans ?_
    simp only [write_time, List.all_cons, List.all_nil, Bool.and_true]
    rfl
  · refine (congrArg Joint.releasing hjoint).trans ?_
    show ((s.joints i).releasing && _) = false
    rw [hoff, Bool.false_and]
  · exact congrArg (· ++ _) hbus
  · rw [frames_for_released c i _ _ _ (List.nodup_finRange n), if_pos (List.mem_finRange i)]
    simp [write_time]

theorem active_effect (i : Fin n) {m m' : Managed K n} {e : Event K n} (hi : StopInv m)
    (ha : m.system.active = true) (hn : next_active c env m e m') :
    Effect c env i m.system m'.system e := by
  rcases active_event c env hi ha hn with ⟨upstream, base, rfl⟩ | ⟨starts, stops, upstream, rfl⟩ |
    ⟨k, position, velocity, effort, rfl⟩ | ⟨period, upstream, frames, rfl⟩
  all_goals obtain ⟨⟨-, rfl⟩, ha', -⟩ := hn
  · -- a `read` that leaves the component active has only looked
    have hcases := read_cases c env upstream base m.system
    have hstate : (perform c env m (.read upstream base)).system =
        (read c env upstream base m.system).2 := rfl
    rw [hstate] at ha' ⊢
    rcases hcases with ⟨t, -, -, he⟩ | ⟨t, hlook, he⟩
    · rw [he, (stop_motors_spec c env _).active] at ha'
      cases ha'
    · rw [he]
      exact Effect.of_same c env hlook.readings hlook.bus (hlook.joints i).release_at
        (hlook.joints i).releasing (fun _ _ _ h => by cases h)
  · have hstate : (perform c env m (.perform_command_mode_switch starts stops upstream)).system =
        (perform_command_mode_switch c env starts stops upstream m.system).2 := rfl
    rw [hstate]
    by_cases hu : upstream = .OK
    · subst hu
      exact switch_effect c env i starts stops m.system
    · have hsame : (perform_command_mode_switch c env starts stops upstream m.system).2 =
          m.system := by
        unfold perform_command_mode_switch
        rw [if_pos hu]
      rw [hsame]
      exact Effect.of_same c env le_rfl rfl rfl rfl (fun _ _ _ h => by cases h)
  · have hstate : (perform c env m (.set_command k position velocity effort)).system =
        set_command k position velocity effort m.system := rfl
    rw [hstate]
    refine Effect.of_same c env le_rfl rfl ?_ ?_ (fun _ _ _ h => by cases h)
    all_goals
      by_cases hk : i = k
      · subst hk
        simp only [set_command, Function.update_self]
      · simp only [set_command, Function.update_of_ne hk]
  · exact write_effect c env i period upstream frames ha

theorem write_times_snoc {m m' : Managed K n} {es : List (Event K n)}
    (hr : Run (next c env) m es m') (e : Event K n) :
    write_times c env m (es ++ [e]) = write_times c env m es ++ write_time env m'.system e :=
  hr.history_snoc (f := perform c env) (g := fun m => write_time env m.system) (fun _ => rfl)
    (fun _ _ _ => rfl) (fun _ _ _ hn => hn.2) e

/-- The release of joint `i` since `x₁`, with a `write` at each of the times. -/
structure Abandoned (i : Fin n) (release_at : Nat) (x₁ x : Controlled K n) (times : List Nat) :
    Prop where
  stop : StopInv x.managed
  active : x.managed.system.active = true
  fixed : (x.managed.system.joints i).release_at = release_at
  releasing : (x.managed.system.joints i).releasing = times.all fun t => decide (t < release_at)
  past : ∀ t ∈ times, t ≤ env.clock.reading x.managed.system.readings
  unclaimed : Unclaimed (c.joint i) x.claims
  sent : ∃ added, x.managed.system.bus = x₁.managed.system.bus ++ added ∧
    frames_for c i added = release_sequence (c.joint i) release_at times

theorem has_prefix_filter {names : List String} {start : String} (keep : String → Bool)
    (h : has_prefix_in names start = false) : has_prefix_in (names.filter keep) start = false := by
  rw [has_prefix_in, List.any_eq_false] at h ⊢
  exact fun name hname => h name (List.mem_of_mem_filter hname)

/-- A joint that no event starts stays unclaimed. -/
theorem Unclaimed.after {i : Fin n} {claims : List String} {e : Event K n}
    (h : Unclaimed (c.joint i) claims) (hs : ¬ StartsJoint c i e) :
    Unclaimed (c.joint i) (claims_after claims e) := by
  unfold claims_after
  split
  · next starts stops =>
    have hstarts : has_prefix_in starts ((c.joint i).name ++ "/") = false :=
      Bool.eq_false_of_not_eq_true fun hp => hs ⟨starts, stops, rfl, hp⟩
    have hkept := has_prefix_filter (fun name => !stops.contains name) h
    unfold Unclaimed has_prefix_in at *
    rw [List.any_append, hkept, hstarts]
    rfl
  · exact h

/-- What the upstream plugin adds for an unclaimed joint. -/
theorem frames_for_upstream {i : Fin n} {frames : List CanFrame}
    (h : ∀ frame ∈ frames, frame.id &&& 0xFF ≠ (c.joint i).can_id) :
    frames_for c i (frames.map .upstream) = [] := by
  rw [frames_for, List.filterMap_map]
  exact List.filterMap_eq_nil_iff.mpr fun frame hframe => if_neg (h frame hframe)

theorem Abandoned.step {i : Fin n} {release_at : Nat} {x₁ x x' : Controlled K n} {times : List Nat}
    {e : Event K n} (h : Abandoned c env i release_at x₁ x times)
    (hn : next_abandoned c env i x e x') :
    Abandoned c env i release_at x₁ x' (times ++ write_time env x.managed.system e) := by
  obtain ⟨⟨hnext, hclaims, hquiet⟩, hactive, hstarts, hstops⟩ := hn
  have heffect := active_effect c env i h.stop h.active hactive
  obtain ⟨own, upstream, hbus, hown, hwrite, hnone⟩ := heffect.bus
  obtain ⟨added, hadded, hsent⟩ := h.sent
  have hupstream : frames_for c i (upstream.map .upstream) = [] := by
    by_cases hw : ∃ period r frames, e = .write period r frames
    · obtain ⟨period, r, frames, rfl⟩ := hw
      rw [hwrite _ _ _ rfl]
      exact frames_for_upstream c (hquiet i (Or.inl h.unclaimed))
    · rw [hnone fun period r frames he => hw ⟨period, r, frames, he⟩]
      rfl
  have hlater : ∀ t ∈ write_time env x.managed.system e,
      t = env.clock.reading x.managed.system.readings := by
    intro t ht
    cases e <;> first | exact absurd ht List.not_mem_nil | exact List.mem_singleton.mp ht
  refine ⟨next_inv c env h.stop hnext, hactive.2.1, (heffect.release_at hstops).trans h.fixed,
    ?_, fun t ht => ?_, hclaims ▸ h.unclaimed.after c hstarts, added ++ (own ++ upstream.map .upstream),
    ?_, ?_⟩
  · rw [heffect.releasing hstarts hstops, h.releasing, h.fixed, List.all_append]
  · have hmono := env.clock.mono heffect.readings
    rcases List.mem_append.mp ht with ht | ht
    · exact (h.past t ht).trans hmono
    · rw [hlater t ht]
      exact hmono
  · rw [hbus, hadded]
    simp only [List.append_assoc]
  · rw [frames_for_append, frames_for_append, hsent, hupstream, List.append_nil, hown]
    -- one `write` at most
    cases htime : write_time env x.managed.system e with
    | nil => simp
    | cons t rest =>
      obtain rfl : rest = [] := by
        cases e <;> first | exact (List.cons.inj htime).2.symm | cases htime
      have ht : t = env.clock.reading x.managed.system.readings := hlater t (by rw [htime]; simp)
      rw [release_sequence_snoc _ _ _ _ fun a ha => ht ▸ h.past a ha]
      congr 1
      simp only [List.flatMap_cons, List.flatMap_nil, List.append_nil, release_frames, h.releasing,
        h.fixed]

theorem Abandoned.run {i : Fin n} {release_at : Nat} {x₁ x : Controlled K n} {fs : List (Event K n)}
    (h : Abandoned c env i release_at x₁ x₁ []) (hr : Run (next_abandoned c env i) x₁ fs x) :
    Abandoned c env i release_at x₁ x (write_times c env x₁.managed fs) := by
  induction hr with
  | nil => exact h
  | @snoc fs t u e hr hn ih =>
    have hrun : Run (next c env) x₁.managed fs t.managed :=
      run_claimed c env (hr.mono fun _ _ _ h => h.1)
    rw [write_times_snoc c env hrun]
    exact ih.step c env hn

omit [Field K] [LinearOrder K] in
theorem frames_to_upstream (i : Fin n) (frames : List CanFrame) :
    frames_to i (frames.map Bus.upstream : List (Bus n)) = [] := by
  refine List.filter_eq_nil_iff.mpr fun b hb => ?_
  obtain ⟨frame, -, rfl⟩ := List.mem_map.mp hb
  exact Bool.false_ne_true

theorem frames_to_of_none {i : Fin n} {l : List (Bus n)} (h : frames_for c i l = []) :
    frames_to i l = [] := by
  have hnone := List.filterMap_eq_nil_iff.mp h
  refine List.filter_eq_nil_iff.mpr fun b hb => ?_
  have hb := hnone b hb
  cases b with
  | upstream frame => exact Bool.false_ne_true
  | own j frame =>
    by_cases hj : j = i
    · simp only [hj, ↓reduceIte, reduceCtorEq] at hb
    · simpa using hj

/-- A restarted joint gets no more frames of a release. -/
theorem restarted_run {i : Fin n} {x₁ x : Controlled K n} {gs : List (Event K n)}
    (hi : StopInv x₁.managed) (ha : x₁.managed.system.active = true)
    (hoff : (x₁.managed.system.joints i).releasing = false)
    (hr : Run (next_restarted c env i) x₁ gs x) :
    StopInv x.managed ∧ x.managed.system.active = true ∧
      (x.managed.system.joints i).releasing = false ∧
      ∃ added, x.managed.system.bus = x₁.managed.system.bus ++ added ∧ frames_to i added = [] := by
  induction hr with
  | nil => exact ⟨hi, ha, hoff, [], (List.append_nil _).symm, rfl⟩
  | @snoc gs t v e _ hn ih =>
    obtain ⟨hi, ha, hoff, added, hadded, hnone⟩ := ih
    obtain ⟨⟨hnext, -, -⟩, hactive, hstops⟩ := hn
    have heffect := active_effect c env i hi ha hactive
    obtain ⟨own, upstream, hbus, hown, -, -⟩ := heffect.bus
    refine ⟨next_inv c env hi hnext, hactive.2.1, heffect.restarts hoff hstops,
      added ++ (own ++ upstream.map .upstream), ?_, ?_⟩
    · rw [hbus, hadded]
      simp only [List.append_assoc]
    · have hsilent : (write_time env t.managed.system e).flatMap (fun time =>
          release_frames (c.joint i) time (t.managed.system.joints i)) = [] := by
        refine List.flatMap_eq_nil_iff.mpr fun time _ => ?_
        rw [release_frames, hoff]
        rfl
      rw [frames_to_append, frames_to_append, hnone, frames_to_upstream,
        frames_to_of_none c (hown.trans hsilent)]
      rfl

/-- Only the commands of joint `i`, and the target that they moved, may differ. -/
inductive CommandsDiffer (i : Fin n) : Fin n → Joint K → Joint K → Prop
  | same (k : Fin n) (j : Joint K) : CommandsDiffer i k j j
  | differ (j : Joint K) (target position velocity effort : Dbl K) :
      CommandsDiffer i i j { j.commanded position velocity effort with target := target }

/-- Only the target of joint `i` may differ, and only while no controller has claimed its
position. -/
inductive TargetDiffers (i : Fin n) : Fin n → Joint K → Joint K → Prop
  | same (k : Fin n) (j : Joint K) : TargetDiffers i k j j
  | stale (j : Joint K) (target : Dbl K) (h : j.position_claimed = false) :
      TargetDiffers i i j { j with target := target }

/-- The same event, with any commands for joint `i` and any frames of the upstream plugin. -/
inductive SameButCommands (i : Fin n) : Event K n → Event K n → Prop
  | set_command {position velocity effort position' velocity' effort' : Dbl K} :
      SameButCommands i (.set_command i position velocity effort)
        (.set_command i position' velocity' effort')
  | write {period : K} {upstream : ReturnType} {frames frames' : List CanFrame} :
      SameButCommands i (.write period upstream frames) (.write period upstream frames')
  | same (e : Event K n) : SameButCommands i e e

omit [Field K] [LinearOrder K] in
theorem forall₂_true {α : Type} {l l' : List α} (h : l.length = l'.length) :
    List.Forall₂ (fun _ _ : α => True) l l' := by
  induction l generalizing l' with
  | nil =>
    cases l' with
    | nil => exact .nil
    | cons y l' => cases h
  | cons x l ih =>
    cases l' with
    | nil => cases h
    | cons y l' => exact .cons trivial (ih (Nat.succ.inj h))

theorem same_setting : SameSetting c c env env :=
  ⟨fun _ => rfl, fun _ => rfl, fun _ => rfl, fun _ => rfl, fun _ => rfl, rfl, rfl, rfl, rfl⟩

omit [LinearOrder K] in
theorem switched_differ (i : Fin n) (p : JointParams K) (claims starts stops active : Bool)
    (release_at : Nat) (j : Joint K) (target position velocity effort : Dbl K) :
    CommandsDiffer i i (j.switched p claims starts stops active release_at)
      (Joint.switched p claims starts stops active release_at
        { j.commanded position velocity effort with target := target }) := by
  cases starts <;> cases stops <;> cases active <;> cases claims <;>
    exact .differ (j.switched p _ _ _ _ release_at) _ _ _ _

theorem commands_twins (i : Fin n) :
    Twins c c env env (CommandsDiffer i) (fun _ _ : Handed K n => True) := by
  constructor
  case toSameSetting => exact same_setting c env
  case failed => exact fun _ => rfl
  case frames =>
    refine fun k => List.forall₂_same.mpr fun frame _ i => ⟨rfl, fun _ t heard j j' h => ?_⟩
    cases h with
    | same k j => exact .same _ _
    | differ j target p v e =>
      have hhear : (hear t frame ({ j.commanded p v e with target := target }, heard)).1 =
          { (hear t frame (j, heard)).1.commanded p v e with target := target } := by
        simp only [hear, Joint.commanded]
      rw [hhear]
      exact .differ _ target p v e
  case shows =>
    intro k j j' h
    cases h <;> exact ⟨rfl, rfl, rfl, rfl, rfl, rfl, rfl, rfl, rfl⟩
  case release =>
    intro k j j' h r
    cases h with
    | same k j => exact .same _ _
    | differ j target p v e => exact .differ { j with releasing := r } target p v e
  case excess =>
    intro k j j' h o
    cases h with
    | same k j => exact .same _ _
    | differ j target p v e => exact .differ { j with over_effort := o } target p v e
  case since =>
    intro k j j' h t
    cases h with
    | same k j => exact .same _ _
    | differ j target p v e => exact .differ { j with over_effort_since := t } target p v e
  case forget =>
    intro k j j' h
    cases h with
    | same k j => exact .same _ _
    | differ j target p v e => exact .differ j.forget target .nan .nan .nan
  case target =>
    intro k j j' h
    cases h with
    | same k j => exact .same _ _
    | differ j target p v e =>
      exact .differ { j with
        target := if (c.joint i).position_commanded then measured_position (c.joint i) j
          else .nan } _ p v e
  case switched =>
    intro starts stops k j j' active release_at h
    cases h with
    | same k j => exact .same _ _
    | differ j target p v e => exact switched_differ i _ _ _ _ _ _ j target p v e
  case written_to =>
    intro k j j' h dt t
    cases h with
    | same k j => exact .same _ _
    | differ j target p v e => exact .differ (j.written (c.joint i) dt t) _ p v e
  case handed =>
    intro k j j' h dt
    have hlength : ∀ (b : Bool) (x y : Handed K n),
        (if b then [x] else []).length = (if b then [y] else []).length := by
      intro b x y
      cases b <;> rfl
    refine forall₂_true ?_
    unfold handed_on
    simp only [List.length_append]
    congr 1
    · exact congrArg₂ (· + ·) (hlength _ _ _) (hlength _ _ _)
    · split
      · exact hlength _ _ _
      · rfl

omit [LinearOrder K] in
theorem switched_stale (i : Fin n) (p : JointParams K) (claims starts stops active : Bool)
    (release_at : Nat) (j : Joint K) (target : Dbl K) (h : j.position_claimed = false) :
    TargetDiffers i i (j.switched p claims starts stops active release_at)
      (Joint.switched p claims starts stops active release_at { j with target := target }) := by
  cases starts with
  | false =>
    cases stops <;> cases active <;>
      exact .stale (j.switched p claims false _ _ release_at) target (by first | exact h | rfl)
  | true =>
    cases claims with
    | true => cases stops <;> cases active <;> exact .same _ _
    | false =>
      cases stops <;> cases active <;>
        exact .stale (j.switched p false true _ _ release_at) target rfl

theorem target_twins (i : Fin n) :
    Twins c c env env (TargetDiffers i) (fun h h' : Handed K n => h' = h) := by
  constructor
  case toSameSetting => exact same_setting c env
  case failed => exact fun _ => rfl
  case frames =>
    refine fun k => List.forall₂_same.mpr fun frame _ i => ⟨rfl, fun _ t heard j j' h => ?_⟩
    cases h with
    | same k j => exact .same _ _
    | stale j target h =>
      have hhear : (hear t frame ({ j with target := target }, heard)).1 =
          { (hear t frame (j, heard)).1 with target := target } := by
        simp only [hear]
      rw [hhear]
      exact .stale _ target h
  case shows =>
    intro k j j' h
    cases h <;> exact ⟨rfl, rfl, rfl, rfl, rfl, rfl, rfl, rfl, rfl⟩
  case release =>
    intro k j j' h r
    cases h with
    | same k j => exact .same _ _
    | stale j target h => exact .stale { j with releasing := r } target h
  case excess =>
    intro k j j' h o
    cases h with
    | same k j => exact .same _ _
    | stale j target h => exact .stale { j with over_effort := o } target h
  case since =>
    intro k j j' h t
    cases h with
    | same k j => exact .same _ _
    | stale j target h => exact .stale { j with over_effort_since := t } target h
  case forget =>
    intro k j j' h
    cases h with
    | same k j => exact .same _ _
    | stale j target h => exact .stale j.forget target h
  case target =>
    intro k j j' h
    cases h with
    | same k j => exact .same _ _
    | stale j target h => exact .same _ _
  case switched =>
    intro starts stops k j j' active release_at h
    cases h with
    | same k j => exact .same _ _
    | stale j target h => exact switched_stale i _ _ _ _ _ _ j target h
  case written_to =>
    intro k j j' h dt t
    cases h with
    | same k j => exact .same _ _
    | stale j target h =>
      have hwritten : Joint.written (c.joint i) dt t { j with target := target } =
          { j.written (c.joint i) dt t with target := target } := by
        have hclaimed : Joint.position_claimed { j with target := target } = false := h
        unfold Joint.written
        rw [position_command_unclaimed hclaimed]
        simp only [ite_self]
      rw [hwritten]
      exact .stale _ target h
  case handed =>
    intro k j j' h dt
    cases h with
    | same k j => exact List.forall₂_same.mpr fun _ _ => rfl
    | stale j target h =>
      have hsame : handed_on (c.joint i) i dt { j with target := target } =
          handed_on (c.joint i) i dt j := by
        have hclaimed : Joint.position_claimed { j with target := target } = false := h
        unfold handed_on
        rw [position_command_unclaimed h, position_command_unclaimed hclaimed]
      rw [hsame]
      exact List.forall₂_same.mpr fun _ _ => rfl

theorem commands_event {i : Fin n} {e e' : Event K n} (h : SameButCommands i e e') :
    EventTwins c c (CommandsDiffer i) e e' := by
  cases h with
  | @set_command p v e p' v' e' =>
    refine .set_command fun j j' hj => ?_
    cases hj with
    | same k j => exact .differ (j.commanded p v e) j.target p' v' e'
    | differ j target _ _ _ => exact .differ (j.commanded p v e) target p' v' e'
  | write => exact .write
  | same =>
    cases e with
    | read upstream base =>
      refine .read fun k j j' hj => ?_
      cases hj with
      | same k j => exact .same _ _
      | differ j target p v e => exact .differ (j.exported (c.joint i) (base i)) target p v e
    | write period upstream frames => exact .write
    | set_command k position velocity effort =>
      refine .set_command fun j j' hj => ?_
      cases hj with
      | same k j => exact .same _ _
      | differ j target p v e => exact .differ (j.commanded _ _ _) target _ _ _
    | _ => exact .same fun h => h

theorem target_event (i : Fin n) (e : Event K n) : EventTwins c c (TargetDiffers i) e e := by
  cases e with
  | read upstream base =>
    refine .read fun k j j' hj => ?_
    cases hj with
    | same k j => exact .same _ _
    | stale j target h => exact .stale (j.exported (c.joint i) (base i)) target h
  | write period upstream frames => exact .write
  | set_command k position velocity effort =>
    refine .set_command fun j j' hj => ?_
    cases hj with
    | same k j => exact .same _ _
    | stale j target h => exact .stale (j.commanded _ _ _) target h
  | _ => exact .same fun h => h

/-- Letting go of the joint scrubs its commands. -/
theorem abandoning_scrubs {i : Fin n} {starts stops : List String}
    (hstop : has_prefix_in stops ((c.joint i).name ++ "/") = true)
    (hstart : has_prefix_in starts ((c.joint i).name ++ "/") = false) :
    Switches c c (CommandsDiffer i) (TargetDiffers i) starts stops := by
  intro k j j' active release_at h
  cases h with
  | same k j => exact .same _ _
  | differ j target p v e =>
    simp only [hstop, hstart]
    cases active <;> exact .stale (j.switched (c.joint i) _ false true _ release_at) target rfl

/-- What follows `m₁` and `m₁'` up to `m` and `m'` is the same: the frames of the component
itself, and what it hands to the upstream plugin. -/
structure SentAlike (m₁ m m₁' m' : Managed K n) : Prop where
  own : ∃ added added', m.system.bus = m₁.system.bus ++ added ∧
    m'.system.bus = m₁'.system.bus ++ added' ∧ own_frames added' = own_frames added
  handed : ∃ handed, m.system.handed = m₁.system.handed ++ handed ∧
    m'.system.handed = m₁'.system.handed ++ handed

/-- The commands that joint `i` was given before the switch could be any others: what
comes after is the same. -/
theorem scrubbed_run {i : Fin n} {es es' : List (Event K n)} {m₀ m₁ : Managed K n}
    {starts stops : List String} (hr : Run (next c env) {} es m₀)
    (hn : next c env m₀ (.perform_command_mode_switch starts stops .OK) m₁)
    (hstop : has_prefix_in stops ((c.joint i).name ++ "/") = true)
    (hstart : has_prefix_in starts ((c.joint i).name ++ "/") = false)
    (hes : List.Forall₂ (SameButCommands i) es es') :
    ∃ m₁', Run (next c env) {} (es' ++ [.perform_command_mode_switch starts stops .OK]) m₁' ∧
      ∀ gs m, Run (next c env) m₁ gs m →
        ∃ m', Run (next c env) m₁' gs m' ∧ SentAlike m₁ m m₁' m' ∧
          results c env m₁' gs = results c env m₁ gs := by
  have hbegin : Alike (CommandsDiffer i) (fun _ _ : Handed K n => True) ({} : SafeSystem K n)
      {} {} {} :=
    ⟨rfl, rfl, rfl, rfl, rfl, rfl, fun k => .same _ _, ⟨[], [], rfl, rfl, rfl⟩,
      ⟨[], [], rfl, rfl, .nil⟩⟩
  obtain ⟨m₀', hr', hlife, halike, -⟩ := run_twins (commands_twins c env i)
    (hes.imp fun _ _ => commands_event c) rfl hbegin hr
  obtain ⟨hlegal, rfl⟩ := hn
  obtain ⟨hresult, hswitched⟩ := switch_twins (same_setting c env)
    (abandoning_scrubs c hstop hstart) halike
  let e : Event K n := .perform_command_mode_switch starts stops .OK
  refine ⟨perform c env m₀' e, hr'.snoc ⟨?_, rfl⟩, fun gs m hgs => ?_⟩
  · rw [hlife]
    exact hlegal
  -- from here on both histories begin anew
  have hfresh : Alike (TargetDiffers i) (fun h h' : Handed K n => h' = h)
      (perform c env m₀ e).system (perform c env m₀' e).system
      (perform c env m₀ e).system (perform c env m₀' e).system :=
    ⟨hswitched.socket, hswitched.active, hswitched.stopped, hswitched.readings,
      hswitched.writes, hswitched.drains, hswitched.joints,
      ⟨[], [], (List.append_nil _).symm, (List.append_nil _).symm, rfl⟩,
      ⟨[], [], (List.append_nil _).symm, (List.append_nil _).symm, .nil⟩⟩
  have hlater : (perform c env m₀' e).lifecycle = (perform c env m₀ e).lifecycle := by
    have hstep : (step c env e m₀'.system).1 = (step c env e m₀.system).1 :=
      congrArg Result.real_time hresult
    simp only [perform]
    rw [hstep, hlife]
  obtain ⟨m', hgs', -, hend, hresults⟩ := run_twins (target_twins c env i)
    (List.forall₂_same.mpr fun e _ => target_event c i e) hlater hfresh hgs
  obtain ⟨handed, handed', hh, hh', hall⟩ := hend.handed
  have hall : List.Forall₂ (· = ·) handed handed' := hall.imp fun _ _ h => Eq.symm h
  rw [List.forall₂_eq_eq_eq] at hall
  subst hall
  exact ⟨m', hgs', ⟨hend.bus, handed, hh, hh'⟩, hresults⟩

theorem abandoned_start {i : Fin n} {x₀ x₁ : Controlled K n} {starts stops : List String}
    (hi : StopInv x₀.managed) (ha : x₀.managed.system.active = true)
    (hn : next_claimed c env x₀ (.perform_command_mode_switch starts stops .OK) x₁)
    (hstop : has_prefix_in stops ((c.joint i).name ++ "/") = true)
    (hstart : has_prefix_in starts ((c.joint i).name ++ "/") = false)
    (hall : Unclaimed (c.joint i) x₁.claims) :
    Abandoned c env i (x₁.managed.system.joints i).release_at x₁ x₁ [] ∧
      ∃ r, x₀.managed.system.readings ≤ r ∧ r < x₁.managed.system.readings ∧
        (x₁.managed.system.joints i).release_at =
          env.clock.reading r + c.brake_time * nsPerMs := by
  have hi₁ := next_inv c env hi hn.1
  obtain ⟨hactive, -, -, hvisited⟩ := switch_fold c env starts stops (List.finRange n)
    (List.nodup_finRange n) x₀.managed.system
  obtain ⟨r, hr, hjoint, hlate⟩ := hvisited i (List.mem_finRange i)
  have hstate : x₁.managed.system =
      (List.finRange n).foldl (switch_joint c env starts stops) x₀.managed.system := by
    rw [hn.1.2]
    rfl
  rw [← hstate] at hactive hjoint hlate
  rw [hstop, hstart, ha] at hjoint hlate
  refine ⟨⟨hi₁, hactive.trans ha, rfl, ?_, fun t ht => absurd ht List.not_mem_nil, hall,
    [], (List.append_nil _).symm, rfl⟩, r, hr, hlate rfl, ?_⟩
  · rw [hjoint]
    rfl
  · rw [hjoint]
    rfl

/-- A joint that is started again is not released any more, and the start itself sends
nothing. -/
theorem restart_cancels {i : Fin n} {m m' : Managed K n} {e : Event K n}
    (hn : next c env m e m') (hs : StartsJoint c i e) :
    m'.system.active = m.system.active ∧ m'.system.bus = m.system.bus ∧
      (m'.system.joints i).releasing = false := by
  obtain ⟨starts, stops, rfl, hstart⟩ := hs
  obtain ⟨-, rfl⟩ := hn
  obtain ⟨hactive, -, -, hvisited⟩ := switch_fold c env starts stops (List.finRange n)
    (List.nodup_finRange n) m.system
  obtain ⟨r, -, hjoint, -⟩ := hvisited i (List.mem_finRange i)
  rw [hstart] at hjoint
  refine ⟨hactive, (switch_silent c env starts stops .OK m.system).bus, ?_⟩
  exact (congrArg Joint.releasing hjoint).trans (by cases has_prefix_in stops _ <;> rfl)

/-- The non-blocking release of an abandoned joint. In every run in which the upstream
plugin keeps to its part, after a mode switch that stops all controllers of a joint of the
active component and starts none, the motor gets zero speed at every `write` before
`release_at`, zero current at the first one that is not, and nothing else; starting the
joint again ends this; and with any other commands for the joint before the switch, all
that comes after is the same. -/
theorem abandoned_joint (i : Fin n) {es fs : List (Event K n)} {x₀ x₁ x : Controlled K n}
    {starts stops : List String} (hr : Run (next_claimed c env) {} es x₀)
    (ha : x₀.managed.system.active = true)
    (hn : next_claimed c env x₀ (.perform_command_mode_switch starts stops .OK) x₁)
    (hstop : has_prefix_in stops ((c.joint i).name ++ "/") = true)
    (hstart : has_prefix_in starts ((c.joint i).name ++ "/") = false)
    (hall : Unclaimed (c.joint i) x₁.claims) (hfs : Run (next_abandoned c env i) x₁ fs x) :
    let release_at := (x₁.managed.system.joints i).release_at
    (∃ r, x₀.managed.system.readings ≤ r ∧ r < x₁.managed.system.readings ∧
      release_at = env.clock.reading r + c.brake_time * nsPerMs) ∧
    (∃ added, x.managed.system.bus = x₁.managed.system.bus ++ added ∧
      frames_for c i added =
        release_sequence (c.joint i) release_at (write_times c env x₁.managed fs)) ∧
    (∀ e x' gs y, next_claimed c env x e x' → StartsJoint c i e →
      Run (next_restarted c env i) x' gs y →
      ∃ added, y.managed.system.bus = x.managed.system.bus ++ added ∧ frames_to i added = []) ∧
    ∀ es', List.Forall₂ (SameButCommands i) es es' →
      ∃ m₁', Run (next c env) {} (es' ++ [.perform_command_mode_switch starts stops .OK]) m₁' ∧
        ∀ gs m, Run (next c env) x₁.managed gs m →
          ∃ m', Run (next c env) m₁' gs m' ∧ SentAlike x₁.managed m m₁' m' ∧
            results c env m₁' gs = results c env x₁.managed gs := by
  have hrun : Run (next c env) {} es x₀.managed := run_claimed c env hr
  have hi := run_inv c env hrun
  obtain ⟨hbegin, hrelease⟩ := abandoned_start c env hi ha hn hstop hstart hall
  have hend := hbegin.run c env hfs
  refine ⟨hrelease, hend.sent, ?_, fun es' hes => scrubbed_run c env hrun hn.1 hstop hstart hes⟩
  intro e x' gs y hn' hs hgs
  obtain ⟨hactive, hbus, hoff⟩ := restart_cancels c env hn'.1 hs
  obtain ⟨-, -, -, added, hadded, hnone⟩ := restarted_run c env
    (next_inv c env hend.stop hn'.1) (hactive.trans hend.active) hoff hgs
  exact ⟨added, hbus ▸ hadded, hnone⟩

/-- The component with the claims on it after one more event. -/
def gizmo_after (x : Controlled ℚ 1) (e : Event ℚ 1) : Controlled ℚ 1 :=
  ⟨perform gizmo (fault_at 9) x.managed e, claims_after x.claims e⟩

def gizmo_claimed : Controlled ℚ 1 :=
  gizmo_after (gizmo_after (gizmo_after {} (.on_configure true .SUCCESS)) (.on_activate .SUCCESS))
    (.perform_command_mode_switch ["gizmo/position"] [] .OK)

def gizmo_abandoned : Controlled ℚ 1 :=
  gizmo_after gizmo_claimed (.perform_command_mode_switch [] ["gizmo/position"] .OK)

def gizmo_read : Event ℚ 1 := .read .OK fun _ _ => .nan
def gizmo_write : Event ℚ 1 := .write (1 / 100) .OK []

/-- A `read` and a `write` that leave the component active belong to the release. -/
theorem gizmo_next {e : Event ℚ 1} (he : e = gizmo_read ∨ e = gizmo_write) {x : Controlled ℚ 1}
    (hl : x.managed.lifecycle ≠ .destroyed)
    (ha : (gizmo_after x e).managed.system.active = true) :
    next_abandoned gizmo (fault_at 9) 0 x e (gizmo_after x e) := by
  rcases he with rfl | rfl
  · refine ⟨⟨⟨hl, rfl⟩, rfl, trivial⟩, ⟨⟨hl, rfl⟩, ha, nofun⟩, ?_, ?_⟩
    · exact fun ⟨_, _, h, _⟩ => nomatch h
    · exact fun ⟨_, _, h, _⟩ => nomatch h
  · refine ⟨⟨⟨hl, rfl⟩, rfl, fun _ _ frame h => absurd h List.not_mem_nil⟩,
      ⟨⟨hl, rfl⟩, ha, nofun⟩, ?_, ?_⟩
    · exact fun ⟨_, _, h, _⟩ => nomatch h
    · exact fun ⟨_, _, h, _⟩ => nomatch h

/-- Two `write`s with two `read`s in between: zero speed, then the release. -/
theorem abandoned_joint_gizmo :
    ∃ added, ([gizmo_write, gizmo_read, gizmo_read, gizmo_write].foldl gizmo_after
        gizmo_abandoned).managed.system.bus = gizmo_abandoned.managed.system.bus ++ added ∧
      frames_for gizmo 0 added = [zero_speed (gizmo.joint 0), zero_current (gizmo.joint 0)] := by
  have hconfigured : next_claimed gizmo (fault_at 9) {} (.on_configure true .SUCCESS)
      (gizmo_after {} (.on_configure true .SUCCESS)) := ⟨⟨rfl, rfl⟩, rfl, trivial⟩
  have hactivated : next_claimed gizmo (fault_at 9) (gizmo_after {} (.on_configure true .SUCCESS))
      (.on_activate .SUCCESS)
      (gizmo_after (gizmo_after {} (.on_configure true .SUCCESS)) (.on_activate .SUCCESS)) :=
    ⟨⟨rfl, rfl⟩, rfl, trivial⟩
  have hlegal : (gizmo_after (gizmo_after {} (.on_configure true .SUCCESS))
      (.on_activate .SUCCESS)).managed.lifecycle ≠ .destroyed := by decide +kernel
  have hclaimed : Run (next_claimed gizmo (fault_at 9)) {}
      [.on_configure true .SUCCESS, .on_activate .SUCCESS,
        .perform_command_mode_switch ["gizmo/position"] [] .OK] gizmo_claimed :=
    ((Run.single hconfigured).snoc hactivated).snoc ⟨⟨hlegal, rfl⟩, rfl, trivial⟩
  have hlegal : gizmo_claimed.managed.lifecycle ≠ .destroyed := by decide +kernel
  have habandoned : next_claimed gizmo (fault_at 9) gizmo_claimed
      (.perform_command_mode_switch [] ["gizmo/position"] .OK) gizmo_abandoned :=
    ⟨⟨hlegal, rfl⟩, rfl, trivial⟩
  have hunclaimed : Unclaimed (gizmo.joint 0) gizmo_abandoned.claims := by
    unfold Unclaimed
    decide +kernel
  have hwrites : Run (next_abandoned gizmo (fault_at 9) 0) gizmo_abandoned
      [gizmo_write, gizmo_read, gizmo_read, gizmo_write]
      ([gizmo_write, gizmo_read, gizmo_read, gizmo_write].foldl gizmo_after gizmo_abandoned) :=
    (((Run.single (gizmo_next (.inr rfl) (by decide +kernel) (by decide +kernel))).snoc
      (gizmo_next (.inl rfl) (by decide +kernel) (by decide +kernel))).snoc
      (gizmo_next (.inl rfl) (by decide +kernel) (by decide +kernel))).snoc
      (gizmo_next (.inr rfl) (by decide +kernel) (by decide +kernel))
  have hsequence : release_sequence (gizmo.joint 0)
      (gizmo_abandoned.managed.system.joints 0).release_at
      (write_times gizmo (fault_at 9) gizmo_abandoned.managed
        [gizmo_write, gizmo_read, gizmo_read, gizmo_write]) =
      [zero_speed (gizmo.joint 0), zero_current (gizmo.joint 0)] := by decide +kernel
  rw [← hsequence]
  exact (abandoned_joint gizmo (fault_at 9) 0 hclaimed (by decide +kernel) habandoned
    (by decide +kernel) (by decide +kernel) hunclaimed hwrites).2.1

end IotRobot.Safe
