import IotRobot.Lib.Traces
import IotRobot.Safe.RealTime

/-!
# Two components side by side

Two components whose joints are related stay so, return the same results and attempt the
same frames, as long as related joints show the same to all code that decides. What is
related, and what the two may hand to their upstream plugins, are parameters; each
function is followed once for all instances.
-/

namespace IotRobot.Safe

open Lib Can

set_option autoImplicit false

section Relations
variable {K : Type} [Field K] [LinearOrder K] {n : Nat}

/-- The frames that the component itself attempted. -/
def own_frames (l : List (Bus n)) : List (Fin n × CanFrame) :=
  l.filterMap fun b => match b with
    | .own i frame => some (i, frame)
    | .upstream _ => none

theorem own_frames_append (l m : List (Bus n)) :
    own_frames (l ++ m) = own_frames l ++ own_frames m := List.filterMap_append ..

theorem own_frames_upstream (frames : List CanFrame) :
    own_frames (frames.map Bus.upstream : List (Bus n)) = [] := by
  rw [own_frames, List.filterMap_map]
  exact List.filterMap_eq_nil_iff.mpr fun _ _ => rfl

/-- What a joint shows to the code that decides. -/
structure Shows (p p' : JointParams K) (j j' : Joint K) : Prop where
  has_status : j'.has_status = j.has_status
  last_status : j'.last_status = j.last_status
  fault : j'.fault = j.fault
  releasing : j'.releasing = j.releasing
  release_at : j'.release_at = j.release_at
  over_effort : j'.over_effort = j.over_effort
  over_effort_since : j'.over_effort_since = j.over_effort_since
  effort : effort p' j' = effort p j
  position : |(j'.raw_position : K) * kDegPerCount| = |(j.raw_position : K) * kDegPerCount|

/-- A state exported in the joint frame. -/
def exported_state (p : JointParams K) (base : Interface → Dbl K) (interface : Interface) : Dbl K :=
  (if p.base_state interface then base interface else .nan).scale p.direction

/-- A joint after the export of its states. -/
def Joint.exported (p : JointParams K) (base : Interface → Dbl K) (joint : Joint K) : Joint K :=
  { joint with
    state_position := exported_state p base .position
    state_velocity := exported_state p base .velocity
    state_effort := exported_state p base .effort
    state_temperature := if joint.has_status then .fin (joint.temperature : K) else .nan }

/-- A joint after a controller has written its command interfaces. -/
def Joint.commanded (position velocity effort : Dbl K) (joint : Joint K) : Joint K :=
  { joint with
    command_position := position
    command_velocity := velocity
    command_effort := effort }

variable (c c' : Component K n) (env env' : Env)

/-- A mode switch leads from joints related by `R` to joints related by `R'`. -/
def Switches (R R' : Fin n → Joint K → Joint K → Prop) (starts stops : List String) : Prop :=
  ∀ i j j' active release_at, R i j j' →
    let name := (c.joint i).name ++ "/"
    let switched (p : JointParams K) (joint : Joint K) := joint.switched p
      (starts.contains (name ++ HW_IF_POSITION)) (has_prefix_in starts name)
      (has_prefix_in stops name) active release_at
    R' i (switched (c.joint i) j) (switched (c'.joint i) j')

/-- The same parameters outside the conversions, the same clock and the same writes. -/
structure SameSetting : Prop where
  name : ∀ i, (c'.joint i).name = (c.joint i).name
  can_id : ∀ i, (c'.joint i).can_id = (c.joint i).can_id
  zero_on_activate : ∀ i, (c'.joint i).zero_on_activate = (c.joint i).zero_on_activate
  stall_effort : ∀ i, (c'.joint i).stall_effort = (c.joint i).stall_effort
  stall_time : ∀ i, (c'.joint i).stall_time = (c.joint i).stall_time
  status_timeout : c'.status_timeout = c.status_timeout
  brake_time : c'.brake_time = c.brake_time
  clock : env'.clock = env.clock
  written : env'.written = env.written

/-- Two frames are for the same joints, which hear related things from them. -/
def FrameTwins (R : Fin n → Joint K → Joint K → Prop) (frame frame' : RxFrame) : Prop :=
  ∀ i, frame'.of (c'.joint i) = frame.of (c.joint i) ∧
    (frame.of (c.joint i) = true → ∀ t heard j j', R i j j' →
      R i (hear t frame (j, heard)).1 (hear t frame' (j', heard)).1)

/-- Related joints show the same, and every operation on a joint keeps them related. -/
structure Twins (R : Fin n → Joint K → Joint K → Prop) (H : Handed K n → Handed K n → Prop) :
    Prop extends SameSetting c c' env env' where
  failed : ∀ k, (env'.batch k).failed = (env.batch k).failed
  frames : ∀ k, List.Forall₂ (FrameTwins c c' R) (env.batch k).frames (env'.batch k).frames
  shows : ∀ {i j j'}, R i j j' → Shows (c.joint i) (c'.joint i) j j'
  release : ∀ {i j j'}, R i j j' → ∀ r, R i { j with releasing := r } { j' with releasing := r }
  excess : ∀ {i j j'}, R i j j' → ∀ o, R i { j with over_effort := o } { j' with over_effort := o }
  since : ∀ {i j j'}, R i j j' → ∀ t,
    R i { j with over_effort_since := t } { j' with over_effort_since := t }
  forget : ∀ {i j j'}, R i j j' → R i j.forget j'.forget
  target : ∀ {i j j'}, R i j j' →
    R i { j with target := if (c.joint i).position_commanded then
            measured_position (c.joint i) j else .nan }
      { j' with target := if (c'.joint i).position_commanded then
            measured_position (c'.joint i) j' else .nan }
  switched : ∀ starts stops, Switches c c' R R starts stops
  written_to : ∀ {i j j'}, R i j j' → ∀ dt t,
    R i (j.written (c.joint i) dt t) (j'.written (c'.joint i) dt t)
  handed : ∀ {i j j'}, R i j j' → ∀ dt,
    List.Forall₂ H (handed_on (c.joint i) i dt j) (handed_on (c'.joint i) i dt j')

/-- Two states that differ only as `R` allows, and what has happened since `u` and `u'`. -/
structure Alike (R : Fin n → Joint K → Joint K → Prop) (H : Handed K n → Handed K n → Prop)
    (u u' s s' : SafeSystem K n) : Prop where
  socket : s'.socket = s.socket
  active : s'.active = s.active
  stopped : s'.stopped = s.stopped
  readings : s'.readings = s.readings
  writes : s'.writes = s.writes
  drains : s'.drains = s.drains
  joints : ∀ i, R i (s.joints i) (s'.joints i)
  bus : ∃ added added', s.bus = u.bus ++ added ∧ s'.bus = u'.bus ++ added' ∧
    own_frames added' = own_frames added
  handed : ∃ added added', s.handed = u.handed ++ added ∧ s'.handed = u'.handed ++ added' ∧
    List.Forall₂ H added added'

end Relations

variable {K : Type} [Field K] [LinearOrder K] {n : Nat} {c c' : Component K n} {env env' : Env}
variable {R : Fin n → Joint K → Joint K → Prop} {H : Handed K n → Handed K n → Prop}
variable {u u' s s' : SafeSystem K n}

/-- The same result, and states that are alike. -/
def Agree (R : Fin n → Joint K → Joint K → Prop) (H : Handed K n → Handed K n → Prop)
    (u u' : SafeSystem K n) {α : Type} (r r' : α × SafeSystem K n) : Prop :=
  r'.1 = r.1 ∧ Alike R H u u' r.2 r'.2

section Parts

omit [Field K] [LinearOrder K] in
/-- Joints that are related still, and nothing else. -/
theorem Alike.joints_of {joints joints' : Fin n → Joint K} (h : Alike R H u u' s s')
    (hj : ∀ i, R i (joints i) (joints' i)) :
    Alike R H u u' { s with joints := joints } { s' with joints := joints' } :=
  ⟨h.socket, h.active, h.stopped, h.readings, h.writes, h.drains, hj, h.bus, h.handed⟩

omit [Field K] [LinearOrder K] in
theorem Alike.active_of (h : Alike R H u u' s s') (active : Bool) :
    Alike R H u u' { s with active := active } { s' with active := active } :=
  ⟨h.socket, rfl, h.stopped, h.readings, h.writes, h.drains, h.joints, h.bus, h.handed⟩

omit [Field K] [LinearOrder K] in
theorem Alike.socket_of (h : Alike R H u u' s s') (socket : Bool) :
    Alike R H u u' { s with socket := socket } { s' with socket := socket } :=
  ⟨rfl, h.active, h.stopped, h.readings, h.writes, h.drains, h.joints, h.bus, h.handed⟩

omit [Field K] [LinearOrder K] in
theorem Alike.stopped_of (h : Alike R H u u' s s') (stopped : Bool) :
    Alike R H u u' { s with stopped := stopped } { s' with stopped := stopped } :=
  ⟨h.socket, h.active, rfl, h.readings, h.writes, h.drains, h.joints, h.bus, h.handed⟩

variable (S : SameSetting c c' env env')
include S

theorem SameSetting.zero_speed (i : Fin n) : zero_speed (c'.joint i) = zero_speed (c.joint i) := by
  rw [Safe.zero_speed, Safe.zero_speed, S.can_id]

theorem SameSetting.zero_current (i : Fin n) :
    zero_current (c'.joint i) = zero_current (c.joint i) := by
  rw [Safe.zero_current, Safe.zero_current, S.can_id]

theorem SameSetting.set_origin (i : Fin n) : set_origin (c'.joint i) = set_origin (c.joint i) := by
  rw [Safe.set_origin, Safe.set_origin, S.can_id]

theorem now_twins (h : Alike R H u u' s s') : Agree R H u u' (now env s) (now env' s') := by
  refine ⟨?_, h.socket, h.active, h.stopped, congrArg (· + 1) h.readings, h.writes, h.drains,
    h.joints, h.bus, h.handed⟩
  show env'.clock.reading s'.readings = _
  rw [S.clock, h.readings]
  rfl

theorem send_twins (i : Fin n) (frame : CanFrame) (h : Alike R H u u' s s') :
    Agree R H u u' (send env i frame s) (send env' i frame s') := by
  refine ⟨?_, h.socket, h.active, h.stopped, h.readings, congrArg (· + 1) h.writes, h.drains,
    h.joints, ?_, h.handed⟩
  · show (s'.socket && env'.written s'.writes) = _
    rw [h.socket, S.written, h.writes]
    rfl
  · obtain ⟨added, added', hb, hb', hown⟩ := h.bus
    refine ⟨added ++ [.own i frame], added' ++ [.own i frame], ?_, ?_, ?_⟩
    · show s.bus ++ _ = _
      rw [hb, List.append_assoc]
    · show s'.bus ++ _ = _
      rw [hb', List.append_assoc]
    · rw [own_frames_append, own_frames_append, hown]

theorem send_each_twins (frame : Fin n → CanFrame) (h : Alike R H u u' s s') :
    Alike R H u u' (send_each env frame s) (send_each env' frame s') :=
  List.foldl_rel h fun i _ _ _ h => (send_twins S i (frame i) h).2

end Parts

section Whole
variable (T : Twins c c' env env' R H)
include T

theorem brake_round_twins (until_ : Nat) (h : Alike R H u u' s s') :
    Sum.LiftRel (Alike R H u u') (Alike R H u u') (brake_round c env until_ s)
      (brake_round c' env' until_ s') := by
  have hsend := send_each_twins T.toSameSetting (fun i => zero_speed (c.joint i)) h
  obtain ⟨htime, hnow⟩ := now_twins T.toSameSetting hsend
  unfold brake_round
  rw [funext T.zero_speed]
  simp only [htime]
  split
  · exact .inl hnow
  · exact .inr hnow

theorem stop_motors_twins (h : Alike R H u u' s s') :
    Alike R H u u' (stop_motors c env s) (stop_motors c' env' s') := by
  have hstop := (h.stopped_of true).joints_of fun i => T.release (h.joints i) false
  unfold stop_motors
  refine rel_ite (by rw [h.socket]) (fun _ => hstop) fun _ => ?_
  have hnow := now_twins T.toSameSetting hstop
  simp only at hnow
  rcases hn : now env { s with
    stopped := true, joints := fun i => { s.joints i with releasing := false } } with ⟨t, v⟩
  rcases hn' : now env' { s' with
    stopped := true, joints := fun i => { s'.joints i with releasing := false } } with ⟨t', v'⟩
  rw [hn, hn'] at hnow
  obtain ⟨rfl, hv⟩ : t' = t ∧ Alike R H u u' v v' := hnow
  rw [funext T.zero_current, T.brake_time, T.clock]
  have hloop := loop_rel (Alike R H u u') (Alike R H u u')
    (brake_round c env (t' + c.brake_time * nsPerMs))
    (brake_round c' env' (t' + c.brake_time * nsPerMs))
    (fun _ _ => brake_round_twins T _) (env.clock.reach (t' + c.brake_time * nsPerMs) + 1) v v' hv
  exact send_each_twins T.toSameSetting _ (rel_getD hloop hv)

theorem stop_once_twins (h : Alike R H u u' s s') :
    Alike R H u u' (stop_once c env s) (stop_once c' env' s') :=
  rel_ite (by rw [h.stopped]) (fun _ => stop_motors_twins T (h.active_of false))
    fun _ => h.active_of false

omit T in
theorem absorb_twins (t : Nat) {frames frames' : List RxFrame}
    (hf : List.Forall₂ (FrameTwins c c' R) frames frames') :
    ∀ (joints joints' : Fin n → Joint K × Bool),
      (∀ i, R i (joints i).1 (joints' i).1 ∧ (joints' i).2 = (joints i).2) →
      ∀ i, R i (frames.foldl (absorb c t) joints i).1 (frames'.foldl (absorb c' t) joints' i).1 := by
  induction hf with
  | nil => exact fun _ _ h i => (h i).1
  | @cons frame frame' frames frames' hframe _ ih =>
    intro joints joints' h
    rw [List.foldl_cons, List.foldl_cons]
    refine ih _ _ fun i => ?_
    obtain ⟨hof, hear_both⟩ := hframe i
    obtain ⟨hi, hheard⟩ := h i
    unfold absorb
    rw [hof]
    split
    · next hown =>
      refine ⟨?_, rfl⟩
      have hheard : joints' i = ((joints' i).1, (joints i).2) := Prod.ext rfl hheard
      rw [hheard]
      exact hear_both hown t (joints i).2 _ _ hi
    · exact h i

theorem drain_status_twins (h : Alike R H u u' s s') :
    Agree R H u u' (drain_status c env s) (drain_status c' env' s') := by
  by_cases hs : s.socket = false
  · rw [drain_status_closed c env hs, drain_status_closed c' env' (h.socket.trans hs)]
    exact ⟨rfl, h⟩
  · have hs := Bool.eq_true_of_not_eq_false hs
    rw [drain_status_open c env hs, drain_status_open c' env' (h.socket.trans hs)]
    refine ⟨by simp only [h.drains, h.active, T.failed], ?_⟩
    have hjoints := absorb_twins (env.clock.reading s.readings) (T.frames s.drains)
      (fun i => (s.joints i, false)) (fun i => (s'.joints i, false)) fun i => ⟨h.joints i, rfl⟩
    refine ⟨h.socket, h.active, h.stopped, congrArg (· + 1) h.readings, h.writes,
      congrArg (· + 1) h.drains, fun i => ?_, h.bus, h.handed⟩
    simp only [drained, T.clock, h.readings, h.drains]
    exact hjoints i

theorem motors_healthy_twins (h : Alike R H u u' s s') :
    Agree R H u u' (motors_healthy c env s) (motors_healthy c' env' s') := by
  have hdrain := drain_status_twins T h
  unfold motors_healthy
  rcases hd : drain_status c env s with ⟨drained, v⟩
  rcases hd' : drain_status c' env' s' with ⟨drained', v'⟩
  rw [hd, hd'] at hdrain
  obtain ⟨rfl, hv⟩ : drained' = drained ∧ Alike R H u u' v v' := hdrain
  refine rel_ite (by rw [h.socket]) (fun _ => ⟨by rw [h.active], h⟩) fun _ => ?_
  refine rel_ite Iff.rfl (fun _ => ⟨rfl, hv⟩) fun _ => ?_
  refine rel_ite (by rw [hv.active]) (fun _ => ⟨rfl, hv⟩) fun _ => ?_
  obtain ⟨htime, hnow⟩ := now_twins T.toSameSetting hv
  refine ⟨?_, hnow⟩
  refine congrArg (List.all _) (funext fun i => ?_)
  have hi := T.shows (hnow.joints i)
  rw [htime, hi.fault, hi.last_status, T.status_timeout]

theorem check_effort_twins (t : Nat) {i : Fin n} {j j' : Joint K} (h : R i j j') :
    Option.Rel (R i) (check_effort t (c.joint i) j) (check_effort t (c'.joint i) j') := by
  have hs := T.shows h
  unfold check_effort
  refine rel_ite (by rw [T.stall_effort, hs.has_status]) (fun _ => .some h) fun _ => ?_
  refine rel_ite (by rw [T.stall_effort, hs.effort]) (fun _ => .some (T.excess h false)) fun _ => ?_
  refine rel_ite (by rw [hs.over_effort]) (fun _ => .some (T.since (T.excess h true) t)) fun _ => ?_
  exact rel_ite (by rw [T.stall_time, hs.over_effort_since]) (fun _ => .none) fun _ => .some h

theorem check_efforts_twins (t : Nat) (l : List (Fin n)) {joints joints' : Fin n → Joint K}
    (h : ∀ i, R i (joints i) (joints' i)) :
    (check_efforts c' t l joints').1 = (check_efforts c t l joints).1 ∧
      ∀ i, R i ((check_efforts c t l joints).2 i) ((check_efforts c' t l joints').2 i) := by
  induction l generalizing joints joints' with
  | nil => exact ⟨rfl, h⟩
  | cons i l ih =>
    have hi := check_effort_twins T t (h i)
    unfold check_efforts
    generalize check_effort t (c.joint i) (joints i) = r at hi
    generalize check_effort t (c'.joint i) (joints' i) = r' at hi
    cases hi with
    | none => exact ⟨rfl, h⟩
    | @some j j' hj =>
      refine ih fun k => ?_
      by_cases hk : k = i
      · subst hk
        rw [Function.update_self, Function.update_self]
        exact hj
      · rw [Function.update_of_ne hk, Function.update_of_ne hk]
        exact h k

theorem efforts_ok_twins (h : Alike R H u u' s s') :
    Agree R H u u' (efforts_ok c env s) (efforts_ok c' env' s') := by
  have hnow := now_twins T.toSameSetting h
  unfold efforts_ok
  rcases hn : now env s with ⟨t, v⟩
  rcases hn' : now env' s' with ⟨t', v'⟩
  rw [hn, hn'] at hnow
  obtain ⟨rfl, hv⟩ : t' = t ∧ Alike R H u u' v v' := hnow
  obtain ⟨hok, hjoints⟩ := check_efforts_twins T t' (List.finRange n) hv.joints
  exact ⟨hok, hv.joints_of hjoints⟩

theorem recent_twins (i : Fin n) (h : Alike R H u u' s s') :
    Agree R H u u' (recent c env i s) (recent c' env' i s') := by
  have hi := T.shows (h.joints i)
  unfold recent
  refine rel_ite (by rw [hi.has_status]) (fun _ => ?_) fun _ => ⟨rfl, h⟩
  have hnow := now_twins T.toSameSetting h
  rcases hn : now env s with ⟨t, v⟩
  rcases hn' : now env' s' with ⟨t', v'⟩
  rw [hn, hn'] at hnow
  obtain ⟨rfl, hv⟩ : t' = t ∧ Alike R H u u' v v' := hnow
  refine ⟨?_, hv⟩
  show decide (_ - (v'.joints i).last_status ≤ _) = _
  rw [(T.shows (hv.joints i)).last_status, T.status_timeout]

theorem all_recent_twins (l : List (Fin n)) (h : Alike R H u u' s s') :
    Agree R H u u' (all_recent c env l s) (all_recent c' env' l s') := by
  induction l generalizing s s' with
  | nil => exact ⟨rfl, h⟩
  | cons i l ih =>
    have hone := recent_twins T i h
    unfold all_recent
    rcases hr : recent c env i s with ⟨ok, v⟩
    rcases hr' : recent c' env' i s' with ⟨ok', v'⟩
    rw [hr, hr'] at hone
    obtain ⟨rfl, hv⟩ : ok' = ok ∧ Alike R H u u' v v' := hone
    exact rel_ite Iff.rfl (fun _ => ih hv) fun _ => ⟨rfl, hv⟩

theorem check_status_twins (l : List (Fin n)) (ok : Bool) (h : Alike R H u u' s s') :
    Agree R H u u' (check_status c env l ok s) (check_status c' env' l ok s') := by
  induction l generalizing ok s s' with
  | nil => exact ⟨rfl, h⟩
  | cons i l ih =>
    have hone := recent_twins T i h
    unfold check_status
    rcases hr : recent c env i s with ⟨r, v⟩
    rcases hr' : recent c' env' i s' with ⟨r', v'⟩
    rw [hr, hr'] at hone
    obtain ⟨rfl, hv⟩ : r' = r ∧ Alike R H u u' v v' := hone
    simp only
    rw [(T.shows (hv.joints i)).fault]
    exact ih _ hv

theorem wait_round_twins (deadline : Nat) (h : Alike R H u u' s s') :
    Sum.LiftRel (Agree R H u u') (Alike R H u u') (wait_round c env deadline s)
      (wait_round c' env' deadline s') := by
  have hdrain := drain_status_twins T h
  unfold wait_round
  rcases hd : drain_status c env s with ⟨drained, v⟩
  rcases hd' : drain_status c' env' s' with ⟨drained', v'⟩
  rw [hd, hd'] at hdrain
  obtain ⟨rfl, hv⟩ : drained' = drained ∧ Alike R H u u' v v' := hdrain
  simp only
  split
  · exact .inl ⟨rfl, hv⟩
  · have hall := all_recent_twins T (List.finRange n) hv
    rcases ha : all_recent c env (List.finRange n) v with ⟨ok, w⟩
    rcases ha' : all_recent c' env' (List.finRange n) v' with ⟨ok', w'⟩
    rw [ha, ha'] at hall
    obtain ⟨rfl, hw⟩ : ok' = ok ∧ Alike R H u u' w w' := hall
    simp only
    split
    · exact .inl ⟨rfl, hw⟩
    · obtain ⟨htime, hnow⟩ := now_twins T.toSameSetting hw
      rw [htime]
      split
      · exact .inl ⟨rfl, hnow⟩
      · exact .inr hnow

theorem wait_for_status_twins (timeout : Nat) (h : Alike R H u u' s s') :
    Agree R H u u' (wait_for_status c env timeout s) (wait_for_status c' env' timeout s') := by
  obtain ⟨htime, hnow⟩ := now_twins T.toSameSetting h
  unfold wait_for_status
  simp only
  rw [htime, T.clock]
  have hloop := loop_rel (Alike R H u u') (Agree R H u u')
    (wait_round c env ((now env s).1 + timeout * nsPerMs))
    (wait_round c' env' ((now env s).1 + timeout * nsPerMs))
    (fun _ _ => wait_round_twins T _)
    (env.clock.reach ((now env s).1 + timeout * nsPerMs) + 1) _ _ hnow
  generalize loop (wait_round c env _) _ _ = r at hloop
  generalize loop (wait_round c' env' _) _ _ = r' at hloop
  cases hloop with
  | none => exact ⟨rfl, hnow⟩
  | @some a b hab =>
    obtain ⟨ok, v⟩ := a
    obtain ⟨ok', v'⟩ := b
    obtain ⟨rfl, hv⟩ : ok' = ok ∧ Alike R H u u' v v' := hab
    cases ok' with
    | true => exact check_status_twins T (List.finRange n) true hv
    | false => exact ⟨rfl, hv⟩

theorem send_origins_twins (l : List (Fin n)) (sent : Fin n → Nat) (h : Alike R H u u' s s') :
    (send_origins c' env' l sent s').1 = (send_origins c env l sent s).1 ∧
      Agree R H u u' (send_origins c env l sent s).2 (send_origins c' env' l sent s').2 := by
  induction l generalizing sent s s' with
  | nil => exact ⟨rfl, rfl, h⟩
  | cons i l ih =>
    unfold send_origins
    rw [T.zero_on_activate, T.zero_current, T.set_origin]
    split
    · have hrelease := send_twins T.toSameSetting i (zero_current (c.joint i)) h
      rcases hr : send env i (zero_current (c.joint i)) s with ⟨released, v⟩
      rcases hr' : send env' i (zero_current (c.joint i)) s' with ⟨released', v'⟩
      rw [hr, hr'] at hrelease
      obtain ⟨rfl, hv⟩ : released' = released ∧ Alike R H u u' v v' := hrelease
      have horigin := send_twins T.toSameSetting i (set_origin (c.joint i)) hv
      rcases ho : send env i (set_origin (c.joint i)) v with ⟨zeroed, w⟩
      rcases ho' : send env' i (set_origin (c.joint i)) v' with ⟨zeroed', w'⟩
      rw [ho, ho'] at horigin
      obtain ⟨rfl, hw⟩ : zeroed' = zeroed ∧ Alike R H u u' w w' := horigin
      simp only [ho, ho']
      split
      · exact ⟨rfl, rfl, hw⟩
      · obtain ⟨htime, hnow⟩ := now_twins T.toSameSetting hw
        rw [htime]
        exact ih _ hnow
    · exact ih sent h

theorem zeroed_twins (sent : Fin n → Nat) (h : Alike R H u u' s s') :
    zeroed c' sent s' = zeroed c sent s := by
  funext i
  have hi := T.shows (h.joints i)
  rw [zeroed, zeroed, T.zero_on_activate, hi.last_status, hi.position]

theorem zero_round_twins (sent : Fin n → Nat) (deadline : Nat) (h : Alike R H u u' s s') :
    Sum.LiftRel (Agree R H u u') (Alike R H u u') (zero_round c env sent deadline s)
      (zero_round c' env' sent deadline s') := by
  have hdrain := drain_status_twins T h
  unfold zero_round
  rcases hd : drain_status c env s with ⟨drained, v⟩
  rcases hd' : drain_status c' env' s' with ⟨drained', v'⟩
  rw [hd, hd'] at hdrain
  obtain ⟨rfl, hv⟩ : drained' = drained ∧ Alike R H u u' v v' := hdrain
  simp only
  split
  · exact .inl ⟨rfl, hv⟩
  · rw [zeroed_twins T sent hv]
    split
    · exact .inl ⟨rfl, hv⟩
    · obtain ⟨htime, hnow⟩ := now_twins T.toSameSetting hv
      rw [htime]
      split
      · exact .inl ⟨rfl, hnow⟩
      · exact .inr hnow

theorem zero_joints_twins (h : Alike R H u u' s s') :
    Agree R H u u' (zero_joints c env s) (zero_joints c' env' s') := by
  have hdrain := drain_status_twins T h
  unfold zero_joints
  rcases hd : drain_status c env s with ⟨drained, v⟩
  rcases hd' : drain_status c' env' s' with ⟨drained', v'⟩
  rw [hd, hd'] at hdrain
  obtain ⟨rfl, hv⟩ : drained' = drained ∧ Alike R H u u' v v' := hdrain
  refine rel_ite Iff.rfl (fun _ => ⟨rfl, hv⟩) fun _ => ?_
  have hsend := send_origins_twins T (List.finRange n) (fun _ => 0) hv
  rcases ho : send_origins c env (List.finRange n) (fun _ => 0) v with ⟨ok, sent, w⟩
  rcases ho' : send_origins c' env' (List.finRange n) (fun _ => 0) v' with ⟨ok', sent', w'⟩
  rw [ho, ho'] at hsend
  obtain ⟨rfl, rfl, hw⟩ : ok' = ok ∧ sent' = sent ∧ Alike R H u u' w w' := hsend
  refine rel_ite Iff.rfl (fun _ => ⟨rfl, hw⟩) fun _ => ?_
  refine rel_ite (by simp only [T.zero_on_activate]) (fun _ => ⟨rfl, hw⟩) fun _ => ?_
  have hnow := now_twins T.toSameSetting hw
  rcases hn : now env w with ⟨t, x⟩
  rcases hn' : now env' w' with ⟨t', x'⟩
  rw [hn, hn'] at hnow
  obtain ⟨rfl, hx⟩ : t' = t ∧ Alike R H u u' x x' := hnow
  simp only
  rw [T.clock]
  have hloop := loop_rel (Alike R H u u') (Agree R H u u')
    (zero_round c env sent' (t' + kActivationWait * nsPerMs))
    (zero_round c' env' sent' (t' + kActivationWait * nsPerMs))
    (fun _ _ => zero_round_twins T sent' _)
    (env.clock.reach (t' + kActivationWait * nsPerMs) + 1) _ _ hx
  exact rel_getD hloop ⟨rfl, hx⟩

theorem on_activate_twins (upstream : CallbackReturn) (h : Alike R H u u' s s') :
    Agree R H u u' (on_activate c env upstream s) (on_activate c' env' upstream s') := by
  unfold on_activate
  refine rel_ite Iff.rfl (fun _ => ⟨rfl, h⟩) fun _ => ?_
  have hwait := wait_for_status_twins T kActivationWait h
  rcases hw : wait_for_status c env kActivationWait s with ⟨ready, v⟩
  rcases hw' : wait_for_status c' env' kActivationWait s' with ⟨ready', v'⟩
  rw [hw, hw'] at hwait
  obtain ⟨rfl, hv⟩ : ready' = ready ∧ Alike R H u u' v v' := hwait
  refine rel_ite Iff.rfl (fun _ => ⟨rfl, hv⟩) fun _ => ?_
  have hzero := zero_joints_twins T ((hv.stopped_of false).joints_of fun i => T.forget (hv.joints i))
  simp only at hzero ⊢
  rcases hz : zero_joints c env { v with
    joints := fun i => (v.joints i).forget, stopped := false } with ⟨zeroed, w⟩
  rcases hz' : zero_joints c' env' { v' with
    joints := fun i => (v'.joints i).forget, stopped := false } with ⟨zeroed', w'⟩
  rw [hz, hz'] at hzero
  obtain ⟨rfl, hw⟩ : zeroed' = zeroed ∧ Alike R H u u' w w' := hzero
  refine rel_ite Iff.rfl (fun _ => ⟨rfl, stop_motors_twins T hw⟩) fun _ => ⟨rfl, ?_⟩
  exact (hw.active_of true).joints_of fun i => T.target (hw.joints i)

theorem read_twins (upstream : ReturnType) {base base' : Fin n → Interface → Dbl K}
    (hbase : ∀ i j j', R i j j' →
      R i (j.exported (c.joint i) (base i)) (j'.exported (c'.joint i) (base' i)))
    (h : Alike R H u u' s s') :
    Agree R H u u' (read c env upstream base s) (read c' env' upstream base' s') := by
  have hmotors := motors_healthy_twins T h
  unfold read
  rcases hm : motors_healthy c env s with ⟨healthy, v⟩
  rcases hm' : motors_healthy c' env' s' with ⟨healthy', v'⟩
  rw [hm, hm'] at hmotors
  obtain ⟨rfl, hv⟩ : healthy' = healthy ∧ Alike R H u u' v v' := hmotors
  have hexport : Alike R H u u' (export_states c base v) (export_states c' base' v') :=
    hv.joints_of fun i => hbase i _ _ (hv.joints i)
  have hstop : ∀ {x x'}, Alike R H u u' x x' → Agree R H u u'
      (ReturnType.ERROR, stop_motors c env { x with active := false })
      (ReturnType.ERROR, stop_motors c' env' { x' with active := false }) :=
    fun hx => ⟨rfl, stop_motors_twins T (hx.active_of false)⟩
  refine rel_ite Iff.rfl (fun _ => hstop hexport) fun _ => ?_
  refine rel_ite (by rw [hexport.active]) (fun _ => ⟨rfl, hexport⟩) fun _ => ?_
  have hefforts := efforts_ok_twins T hexport
  rcases he : efforts_ok c env (export_states c base v) with ⟨ok, w⟩
  rcases he' : efforts_ok c' env' (export_states c' base' v') with ⟨ok', w'⟩
  rw [he, he'] at hefforts
  obtain ⟨rfl, hw⟩ : ok' = ok ∧ Alike R H u u' w w' := hefforts
  exact rel_ite Iff.rfl (fun _ => hstop hw) fun _ => ⟨rfl, hw⟩

omit T [Field K] [LinearOrder K] in
theorem update_twins {joints joints' : Fin n → Joint K} {Q : Fin n → Joint K → Joint K → Prop}
    (hj : ∀ k, Q k (joints k) (joints' k)) (i : Fin n) {j j' : Joint K} (h : Q i j j') (k : Fin n) :
    Q k (Function.update joints i j k) (Function.update joints' i j' k) := by
  by_cases hk : k = i
  · subst hk
    rwa [Function.update_self, Function.update_self]
  · rw [Function.update_of_ne hk, Function.update_of_ne hk]
    exact hj k

theorem release_frames_twins (t : Nat) {i : Fin n} {j j' : Joint K} (h : R i j j') :
    release_frames (c'.joint i) t j' = release_frames (c.joint i) t j := by
  have hs := T.shows h
  rw [release_frames, release_frames, T.zero_speed, T.zero_current, hs.releasing, hs.release_at]

theorem write_joint_twins (dt : K) (t : Nat) (i : Fin n) (h : Alike R H u u' s s') :
    Alike R H u u' (write_joint c env dt t s i) (write_joint c' env' dt t s' i) := by
  have hframes := release_frames_twins T t (h.joints i)
  rw [write_joint_eq, write_joint_eq]
  refine ⟨h.socket, h.active, h.stopped, h.readings, ?_, h.drains,
    update_twins h.joints i (T.written_to (h.joints i) dt t), ?_, ?_⟩
  · show s'.writes + _ = s.writes + _
    rw [hframes, h.writes]
  · obtain ⟨added, added', hb, hb', hown⟩ := h.bus
    refine ⟨added ++ (release_frames (c.joint i) t (s.joints i)).map (.own i),
      added' ++ (release_frames (c'.joint i) t (s'.joints i)).map (.own i), ?_, ?_, ?_⟩
    · exact (congrArg (· ++ _) hb).trans (List.append_assoc ..)
    · exact (congrArg (· ++ _) hb').trans (List.append_assoc ..)
    · rw [own_frames_append, own_frames_append, hown, hframes]
  · obtain ⟨added, added', hb, hb', hall⟩ := h.handed
    refine ⟨_, _, ?_, ?_, List.rel_append hall (T.handed (h.joints i) dt)⟩
    · exact (congrArg (· ++ _) hb).trans (List.append_assoc ..)
    · exact (congrArg (· ++ _) hb').trans (List.append_assoc ..)

theorem write_twins (period : K) (upstream : ReturnType) (frames frames' : List CanFrame)
    (h : Alike R H u u' s s') :
    Agree R H u u' (write c env period upstream frames s)
      (write c' env' period upstream frames' s') := by
  unfold write
  refine rel_ite (by rw [h.active]) (fun _ => ⟨rfl, h⟩) fun _ => ?_
  obtain ⟨htime, hnow⟩ := now_twins T.toSameSetting h
  have hall : Alike R H u u'
      ((List.finRange n).foldl (write_joint c env (slew_period period) (now env s).1)
        (now env s).2)
      ((List.finRange n).foldl (write_joint c' env' (slew_period period) (now env' s').1)
        (now env' s').2) := by
    rw [htime]
    exact List.foldl_rel hnow fun i _ _ _ h => write_joint_twins T _ _ i h
  refine ⟨rfl, hall.socket, hall.active, hall.stopped, hall.readings, hall.writes, hall.drains,
    hall.joints, ?_, hall.handed⟩
  obtain ⟨added, added', hb, hb', hown⟩ := hall.bus
  refine ⟨added ++ frames.map .upstream, added' ++ frames'.map .upstream, ?_, ?_, ?_⟩
  · exact (congrArg (· ++ _) hb).trans (List.append_assoc ..)
  · exact (congrArg (· ++ _) hb').trans (List.append_assoc ..)
  · rw [own_frames_append, own_frames_append, own_frames_upstream, own_frames_upstream, hown]

end Whole

/-- A mode switch that leads from `R` to `R'` does so joint by joint; `l` are the joints
that it has yet to visit. -/
theorem switch_joints_twins (S : SameSetting c c' env env') {R' : Fin n → Joint K → Joint K → Prop}
    {starts stops : List String} (hswitch : Switches c c' R R' starts stops) (l : List (Fin n))
    (hl : l.Nodup) (h : Alike (fun i => if i ∈ l then R i else R' i) H u u' s s') :
    Alike R' H u u' (l.foldl (switch_joint c env starts stops) s)
      (l.foldl (switch_joint c' env' starts stops) s') := by
  induction l generalizing s s' with
  | nil => simpa using h
  | cons i l ih =>
    obtain ⟨hi, hl⟩ := List.nodup_cons.mp hl
    refine ih hl ?_
    have hjoint : R i (s.joints i) (s'.joints i) := by
      have := h.joints i
      rwa [if_pos List.mem_cons_self] at this
    rw [switch_joint_eq, switch_joint_eq]
    refine ⟨h.socket, h.active, h.stopped, ?_, h.writes, h.drains, fun k => ?_, h.bus, h.handed⟩
    · simp only [S.name, h.active, h.readings]
    · simp only [S.name, S.clock, S.brake_time, h.active, h.readings]
      by_cases hk : k = i
      · subst hk
        rw [Function.update_self, Function.update_self, if_neg hi]
        exact hswitch k _ _ s.active _ hjoint
      · rw [Function.update_of_ne hk, Function.update_of_ne hk]
        have := h.joints k
        simpa only [List.mem_cons, hk, false_or] using this

theorem switch_twins (S : SameSetting c c' env env') {R' : Fin n → Joint K → Joint K → Prop}
    {starts stops : List String} (hswitch : Switches c c' R R' starts stops)
    (h : Alike R H u u' s s') :
    Agree R' H u u' (perform_command_mode_switch c env starts stops .OK s)
      (perform_command_mode_switch c' env' starts stops .OK s') := by
  refine ⟨rfl, switch_joints_twins S hswitch (List.finRange n) (List.nodup_finRange n) ?_⟩
  simpa only [List.mem_finRange, ↓reduceIte] using h

/-- The events with data in which two runs may differ. -/
def HasData : Event K n → Prop
  | .read _ _ | .write _ _ _ | .set_command _ _ _ _ => True
  | _ => False

/-- Two events that keep related joints related: upstream states and commands go with `R`,
and what the upstream plugins send is their own affair. -/
inductive EventTwins (c c' : Component K n) (R : Fin n → Joint K → Joint K → Prop) :
    Event K n → Event K n → Prop
  | read {upstream : ReturnType} {base base' : Fin n → Interface → Dbl K}
      (h : ∀ i j j', R i j j' →
        R i (j.exported (c.joint i) (base i)) (j'.exported (c'.joint i) (base' i))) :
      EventTwins c c' R (.read upstream base) (.read upstream base')
  | write {period : K} {upstream : ReturnType} {frames frames' : List CanFrame} :
      EventTwins c c' R (.write period upstream frames) (.write period upstream frames')
  | set_command {i : Fin n} {position velocity effort position' velocity' effort' : Dbl K}
      (h : ∀ j j', R i j j' →
        R i (j.commanded position velocity effort) (j'.commanded position' velocity' effort')) :
      EventTwins c c' R (.set_command i position velocity effort)
        (.set_command i position' velocity' effort')
  | same {e : Event K n} (h : ¬ HasData e) : EventTwins c c' R e e

section Runs
variable (T : Twins c c' env env' R H)
include T

theorem step_twins {e e' : Event K n} (he : EventTwins c c' R e e') (h : Alike R H u u' s s') :
    Agree R H u u' (step c env e s) (step c' env' e' s') := by
  have hresult : ∀ {α : Type} {r r' : α × SafeSystem K n} (f : α → Result),
      Agree R H u u' r r' → Agree R H u u' (f r.1, r.2) (f r'.1, r'.2) :=
    fun f hr => ⟨congrArg f hr.1, hr.2⟩
  cases he with
  | read hbase => exact hresult .real_time (read_twins T _ hbase h)
  | write => exact hresult .real_time (write_twins T _ _ _ _ h)
  | set_command hset =>
    exact ⟨rfl, h.joints_of (update_twins h.joints _ (hset _ _ (h.joints _)))⟩
  | same hdata =>
    cases e with
    | on_configure opened upstream =>
      have hopened := h.socket_of opened
      refine hresult .callback (rel_ite Iff.rfl (fun _ => ⟨rfl, hopened⟩) fun _ => ?_)
      exact rel_ite Iff.rfl (fun _ => ⟨rfl, hopened⟩) fun _ => ⟨rfl, hopened.socket_of false⟩
    | on_cleanup upstream => exact ⟨rfl, (stop_once_twins T h).socket_of false⟩
    | on_activate upstream => exact hresult .callback (on_activate_twins T upstream h)
    | on_deactivate upstream => exact ⟨rfl, stop_motors_twins T (h.active_of false)⟩
    | on_shutdown upstream => exact ⟨rfl, (stop_once_twins T h).socket_of false⟩
    | on_error => exact ⟨rfl, stop_once_twins T h⟩
    | perform_command_mode_switch starts stops upstream =>
      have hswitch : Agree R H u u' (perform_command_mode_switch c env starts stops upstream s)
          (perform_command_mode_switch c' env' starts stops upstream s') := by
        by_cases hu : upstream = .OK
        · subst hu
          exact switch_twins T.toSameSetting (T.switched starts stops) h
        · unfold perform_command_mode_switch
          rw [if_pos hu, if_pos hu]
          exact ⟨rfl, h⟩
      exact hresult .real_time hswitch
    | set_command i position velocity effort => exact absurd trivial hdata
    | read upstream base => exact absurd trivial hdata
    | write period upstream frames => exact absurd trivial hdata
    | destroy =>
      have hstop : Alike R H u u' (if s.stopped = false then stop_motors c env s else s)
          (if s'.stopped = false then stop_motors c' env' s' else s') :=
        rel_ite (by rw [h.stopped]) (fun _ => stop_motors_twins T h) fun _ => h
      exact ⟨rfl, hstop.socket_of false⟩

omit T in
theorem legal_twins {e e' : Event K n} (he : EventTwins c c' R e e') (l : Lifecycle) (r : Result) :
    (Legal l e' ↔ Legal l e) ∧ after l e' r = after l e r := by
  cases he with
  | same hdata => exact ⟨Iff.rfl, rfl⟩
  | _ =>
    refine ⟨Iff.rfl, ?_⟩
    cases r with
    | callback r => rfl
    | real_time r => cases r <;> rfl
    | none => rfl

/-- What the callbacks of a run return, in order. -/
def results (c : Component K n) (env : Env) (m : Managed K n) : List (Event K n) → List Result
  | [] => []
  | e :: es => (step c env e m.system).1 :: results c env (perform c env m e) es

omit T in
theorem results_snoc {m m' : Managed K n} {es : List (Event K n)}
    (hr : Run (next c env) m es m') (e : Event K n) :
    results c env m (es ++ [e]) = results c env m es ++ [(step c env e m'.system).1] :=
  hr.history_snoc (f := perform c env) (g := fun m e => [(step c env e m.system).1])
    (fun _ => rfl) (fun _ _ _ => rfl) (fun _ _ _ hn => hn.2) e

/-- A run of one component is a run of the other, event by event, with the same results. -/
theorem run_twins {m₀ m₀' m : Managed K n} {es es' : List (Event K n)}
    (hes : List.Forall₂ (EventTwins c c' R) es es')
    (hl : m₀'.lifecycle = m₀.lifecycle) (h : Alike R H u u' m₀.system m₀'.system)
    (hr : Run (next c env) m₀ es m) :
    ∃ m', Run (next c' env') m₀' es' m' ∧ m'.lifecycle = m.lifecycle ∧
      Alike R H u u' m.system m'.system ∧ results c' env' m₀' es' = results c env m₀ es := by
  induction hr generalizing es' with
  | nil =>
    cases hes
    exact ⟨m₀', .nil, hl, h, rfl⟩
  | @snoc es t v e hrun hn ih =>
    obtain ⟨before, e', rfl, hbefore, he⟩ := forall₂_snoc_left hes
    obtain ⟨t', hrun', hlife, halike, hresults⟩ := ih hbefore
    obtain ⟨hlegal, rfl⟩ := hn
    obtain ⟨hresult, hstep⟩ := step_twins T he halike
    obtain ⟨hlegal', hafter⟩ := legal_twins (c := c) he t.lifecycle (step c env e t.system).1
    refine ⟨perform c' env' t' e', hrun'.snoc ⟨?_, rfl⟩, ?_, hstep, ?_⟩
    · rw [hlife]
      exact hlegal'.mpr hlegal
    · simp only [perform]
      rw [hresult, hlife, hafter]
    · rw [results_snoc hrun', results_snoc hrun, hresults, hresult]

end Runs

end IotRobot.Safe
