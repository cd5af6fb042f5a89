import IotRobot.Safe.RealTime
import Mathlib.Data.List.Nodup

/-!
# The motor stop invariant over whole runs

An active component is one whose motors have not been stopped, and nothing but
stop and zeroing frames is sent while it is not active. Every event either keeps
the two flags, or stops every motor, or is the activation that succeeds.
-/

namespace IotRobot.Safe

open Lib Can

set_option autoImplicit false

section Frames
variable {K : Type} {n : Nat}

/-- The attempts for one joint, in order. -/
def frames_to (i : Fin n) (l : List (Bus n)) : List (Bus n) :=
  l.filter fun b => match b with
    | .own j _ => j = i
    | .upstream _ => false

theorem frames_to_append (i : Fin n) (l m : List (Bus n)) :
    frames_to i (l ++ m) = frames_to i l ++ frames_to i m := List.filter_append ..

theorem frames_to_each (i : Fin n) (frame : Fin n → CanFrame) :
    frames_to i (each frame) = [.own i (frame i)] := by
  have hone : (List.finRange n).filter (fun j => decide (j = i)) = [i] := by
    rw [List.filter_eq, List.count_eq_one_of_mem (List.nodup_finRange n) (List.mem_finRange i)]
    rfl
  rw [frames_to, each, List.filter_map]
  change ((List.finRange n).filter (fun j => decide (j = i))).map _ = _
  rw [hone]
  rfl

theorem frames_to_rounds (i : Fin n) (frame : Fin n → CanFrame) (rounds : Nat) :
    frames_to i (List.replicate rounds (each frame)).flatten =
      List.replicate rounds (.own i (frame i)) := by
  induction rounds with
  | zero => rfl
  | succ rounds ih =>
    rw [List.replicate_succ, List.flatten_cons, frames_to_append, ih, frames_to_each]
    rfl

/-- What holds between the events of a lifecycle-legal run. -/
structure StopInv (m : Managed K n) : Prop where
  flags : m.lifecycle ≠ .destroyed → m.system.active = !m.system.stopped
  wired : m.lifecycle ≠ .destroyed → m.system.active = true → m.system.socket = true
  idle : m.lifecycle = .unconfigured ∨ m.lifecycle = .inactive ∨ m.lifecycle = .finalized →
    m.system.active = false
  opened : m.lifecycle = .inactive ∨ m.lifecycle = .active → m.system.socket = true

theorem StopInv.start : StopInv ({} : Managed K n) :=
  ⟨fun _ => rfl, fun _ h => Bool.noConfusion h, fun _ => rfl, fun h => by simp at h⟩

/-- A component whose motors have just been stopped. -/
theorem StopInv.of_inactive {m : Managed K n} (ha : m.system.active = false)
    (hs : m.system.stopped = true)
    (ho : m.lifecycle = .inactive ∨ m.lifecycle = .active → m.system.socket = true) :
    StopInv m :=
  ⟨fun _ => by rw [ha, hs]; rfl, fun _ h => absurd (ha.symm.trans h) (by decide), fun _ => ha, ho⟩

/-- Nothing is asked of a component after its destruction. -/
theorem StopInv.destroyed (s : SafeSystem K n) : StopInv ⟨s, .destroyed⟩ :=
  ⟨fun h => absurd rfl h, fun h => absurd rfl h, by simp, by simp⟩

/-- An event that keeps socket and flags keeps the invariant, in the same lifecycle
state as well as on the way to `on_error`. -/
theorem StopInv.keep {m : Managed K n} (hi : StopInv m) {s' : SafeSystem K n} {l : Lifecycle}
    (hk : Keeps m.system s') (hd : m.lifecycle ≠ .destroyed)
    (hl : l = m.lifecycle ∨ l = .errorProcessing) : StopInv ⟨s', l⟩ := by
  have hflags : s'.active = !s'.stopped := by rw [hk.active, hk.stopped, hi.flags hd]
  have hwired : s'.active = true → s'.socket = true := by
    rw [hk.active, hk.socket]
    exact hi.wired hd
  rcases hl with rfl | rfl
  · exact ⟨fun _ => hflags, fun _ => hwired, fun h => hk.active.trans (hi.idle h),
      fun h => hk.socket.trans (hi.opened h)⟩
  · exact ⟨fun _ => hflags, fun _ => hwired, by simp, by simp⟩

/-- A real-time callback leads to error processing or leaves the lifecycle state. -/
theorem after_read_write (l : Lifecycle) (r : ReturnType) :
    (∀ upstream base, after l (.read upstream base : Event K n) (.real_time r) = l ∨
      after l (.read upstream base : Event K n) (.real_time r) = .errorProcessing) ∧
    (∀ period upstream frames, after l (.write period upstream frames : Event K n)
        (.real_time r) = l ∨
      after l (.write period upstream frames : Event K n) (.real_time r) = .errorProcessing) := by
  cases r <;> cases l <;> simp [after]

theorem Legal.not_destroyed {l : Lifecycle} {e : Event K n} (h : Legal l e) :
    l ≠ .destroyed := by
  intro hd
  cases e <;> simp only [Legal, hd, reduceCtorEq, ne_eq, not_true_eq_false, or_self] at h

end Frames

variable {K : Type} [Field K] [LinearOrder K] {n : Nat} (c : Component K n) (env : Env)

/-- Zero speed, zero current or a temporary origin: the frames that drive nothing. -/
def Harmless (b : Bus n) : Prop :=
  ∃ i, b = .own i (zero_speed (c.joint i)) ∨ b = .own i (zero_current (c.joint i)) ∨
    b = .own i (set_origin (c.joint i))

theorem Zeroing.harmless {b : Bus n} (h : Zeroing c b) : Harmless c b := by
  obtain ⟨i, h | h⟩ := h
  · exact ⟨i, Or.inr (Or.inl h)⟩
  · exact ⟨i, Or.inr (Or.inr h)⟩

/-- A list of attempts that stops every motor: each joint gets zero speed at least
once and after that zero current exactly once. -/
structure FullStop (l : List (Bus n)) : Prop where
  harmless : ∀ b ∈ l, Harmless c b
  joint : ∀ i, ∃ rounds, frames_to i l =
    List.replicate (rounds + 1) (.own i (zero_speed (c.joint i))) ++
      [.own i (zero_current (c.joint i))]

private theorem mem_each {frame : Fin n → CanFrame} {b : Bus n} (h : b ∈ each frame) :
    ∃ i, b = .own i (frame i) := by
  obtain ⟨i, _, rfl⟩ := List.mem_map.mp h
  exact ⟨i, rfl⟩

theorem stop_frames_full (rounds : Nat) : FullStop c (stop_frames c rounds) := by
  constructor
  · intro b hb
    rcases List.mem_append.mp hb with hb | hb
    · obtain ⟨l, hl, hb⟩ := List.mem_flatten.mp hb
      rw [List.eq_of_mem_replicate hl] at hb
      obtain ⟨i, rfl⟩ := mem_each hb
      exact ⟨i, Or.inl rfl⟩
    · obtain ⟨i, rfl⟩ := mem_each hb
      exact ⟨i, Or.inr (Or.inl rfl)⟩
  · intro i
    refine ⟨rounds, ?_⟩
    rw [stop_frames, frames_to_append, frames_to_rounds, frames_to_each]

/-- The motors are stopped between `s` and `s'`: what is sent before the stop drives
nothing, and the stop is the last that is sent. -/
structure Stops (s s' : SafeSystem K n) : Prop where
  stopped : s'.stopped = true
  frames : ∃ before stop, s'.bus = s.bus ++ before ++ stop ∧
    (∀ b ∈ before, Harmless c b) ∧ FullStop c stop

/-- What one callback does to the flags and the bus; only one with `activates` can
make the component active. -/
inductive Change (activates : Prop) (s s' : SafeSystem K n) : Prop
  | keeps (active : s'.active = s.active) (stopped : s'.stopped = s.stopped)
      (sends : s.active = false → Sends (Harmless c) s s')
  | stops (active : s'.active = false) (stops : Stops c s s')
  | starts (success : activates) (active : s'.active = true) (stopped : s'.stopped = false)
      (sends : Sends (Harmless c) s s')

variable {c env} {activates : Prop}

theorem Stops.sends {s s' : SafeSystem K n} (h : Stops c s s') : Sends (Harmless c) s s' := by
  obtain ⟨before, stop, hb, hbefore, hstop⟩ := h.frames
  refine ⟨before ++ stop, by rw [hb, List.append_assoc], ?_⟩
  intro b hm
  rcases List.mem_append.mp hm with hm | hm
  · exact hbefore b hm
  · exact hstop.harmless b hm

theorem Change.refl (s : SafeSystem K n) : Change c activates s s :=
  .keeps rfl rfl fun _ => Sends.refl _ s

theorem Change.of_looks {s s' : SafeSystem K n} (h : Looks c env s s') : Change c activates s s' :=
  .keeps h.keeps.active h.keeps.stopped fun _ => h.watches.sends

/-- A stop after frames that drive nothing, with the socket open. -/
theorem stop_motors_stops {s t : SafeSystem K n} (h : Sends (Harmless c) s t)
    (hs : t.socket = true) : Stops c s (stop_motors c env t) := by
  have hstop := stop_motors_spec c env t
  obtain ⟨before, hb, hharmless⟩ := h
  obtain ⟨rounds, hr⟩ := hstop.frames hs
  exact ⟨hstop.stopped, before, stop_frames c rounds, by rw [hr, hb], hharmless,
    stop_frames_full c rounds⟩

variable (c env)

theorem stop_once_change (s : SafeSystem K n) (hflags : s.active = !s.stopped)
    (hwired : s.active = true → s.socket = true) : Change c activates s (stop_once c env s) := by
  unfold stop_once
  by_cases hs : s.stopped = false
  · rw [if_pos hs]
    have ha : s.active = true := by rw [hflags, hs]; rfl
    have hstop := stop_motors_spec c env { s with active := false }
    exact .stops hstop.active
      (stop_motors_stops (Sends.of_bus_eq (s := s) rfl) (hwired ha))
  · rw [if_neg hs]
    have ha : s.active = false := by rw [hflags, Bool.eq_true_of_not_eq_false hs]; rfl
    exact .keeps ha.symm rfl fun _ => Sends.of_bus_eq rfl

theorem stop_once_inactive (s : SafeSystem K n) : (stop_once c env s).active = false := by
  unfold stop_once
  dsimp only
  split
  · exact (stop_motors_spec c env { s with active := false }).active
  · rfl

theorem stop_once_stopped (s : SafeSystem K n) : (stop_once c env s).stopped = true := by
  unfold stop_once
  dsimp only
  split
  · exact (stop_motors_spec c env { s with active := false }).stopped
  · rename_i h
    exact Bool.eq_true_of_not_eq_false h

theorem Change.mono {s s' : SafeSystem K n} {P Q : Prop} (hpq : P → Q) (h : Change c P s s') :
    Change c Q s s' := by
  cases h with
  | keeps ha hs hb => exact .keeps ha hs hb
  | stops ha hst => exact .stops ha hst
  | starts h ha hs hb => exact .starts (hpq h) ha hs hb

/-- Closing the socket changes neither the flags nor the bus. -/
theorem Change.close {s s' : SafeSystem K n} (h : Change c activates s s') :
    Change c activates s (close_socket s') := by
  cases h with
  | keeps ha hs hb => exact .keeps ha hs hb
  | stops ha hst => exact .stops ha ⟨hst.stopped, hst.frames⟩
  | starts h ha hs hb => exact .starts h ha hs hb

/-- A failed activation has either sent nothing or stopped the motors; a successful one
has sent only the frames of the zeroing. -/
theorem on_activate_change (upstream : CallbackReturn) (s : SafeSystem K n)
    (hs : s.socket = true) (ha : s.active = false) :
    let r := on_activate c env upstream s
    Change c (r.1 = .SUCCESS) s r.2 ∧ r.2.socket = s.socket ∧
      (r.2.active = true ↔ r.1 = .SUCCESS) := by
  have hcases := on_activate_cases c env upstream s
  generalize on_activate c env upstream s = r at hcases
  cases hcases with
  | refused hu => exact ⟨Change.refl s, rfl, by simp [ha, hu]⟩
  | silent hu hw =>
    have hlook := wait_for_status_looks c env kActivationWait s
    rw [hw] at hlook
    exact ⟨Change.of_looks hlook, hlook.keeps.socket, by rw [hlook.keeps.active, ha]; simp⟩
  | @not_zeroed t v hu hw hz =>
    obtain ⟨hsocket, hactive, _, hsend, _⟩ := activation_watches c env hw hz
    have hstop := stop_motors_spec c env v
    have hactive' := (hstop.active.trans hactive).trans ha
    refine ⟨.stops hactive' ?_, hstop.socket.trans hsocket, by simp [hactive']⟩
    exact stop_motors_stops (hsend.mono fun _ => Zeroing.harmless c) (hsocket.trans hs)
  | success hu hw hz =>
    obtain ⟨hsocket, _, hstopped, hsend, _⟩ := activation_watches c env hw hz
    exact ⟨.starts rfl rfl hstopped (hsend.mono fun _ => Zeroing.harmless c), hsocket,
      by simp [activated]⟩

/-- An activation that fails after the status check has stopped the motors. -/
theorem failed_activation_stops {s : SafeSystem K n} (hs : s.socket = true)
    (hready : (wait_for_status c env kActivationWait s).1 = true)
    (hr : (on_activate c env .SUCCESS s).1 ≠ .SUCCESS) :
    Stops c s (on_activate c env .SUCCESS s).2 := by
  have hcases := on_activate_cases c env .SUCCESS s
  generalize on_activate c env .SUCCESS s = r at hcases hr
  cases hcases with
  | refused hu => exact absurd rfl hu
  | silent hu hw => rw [hw] at hready; cases hready
  | not_zeroed hu hw hz =>
    obtain ⟨hsocket, _, _, hsend, _⟩ := activation_watches c env hw hz
    exact stop_motors_stops (hsend.mono fun _ => Zeroing.harmless c) (hsocket.trans hs)
  | success hu hw hz => exact absurd rfl hr

theorem on_deactivate_change (upstream : CallbackReturn) (s : SafeSystem K n)
    (hs : s.socket = true) : Change c activates s (on_deactivate c env upstream s).2 :=
  .stops (stop_motors_spec c env { s with active := false }).active
    (stop_motors_stops (Sends.of_bus_eq (s := s) rfl) hs)

theorem read_change (upstream : ReturnType) (base : Fin n → Interface → Dbl K)
    (s : SafeSystem K n) (hwired : s.active = true → s.socket = true) :
    Change c activates s (read c env upstream base s).2 := by
  rcases read_cases c env upstream base s with ⟨t, hl, ha, he⟩ | ⟨t, hl, he⟩
  · rw [he]
    refine .stops (stop_motors_spec c env { t with active := false }).active
      (stop_motors_stops ?_ (hl.keeps.socket.trans (hwired ha)))
    exact hl.watches.sends.trans (Sends.of_bus_eq rfl)
  · rw [he]
    exact Change.of_looks hl

theorem write_change (period : K) (upstream : ReturnType) (frames : List CanFrame)
    (s : SafeSystem K n) : Change c activates s (write c env period upstream frames s).2 := by
  cases ha : s.active with
  | false => rw [write_inactive c env ha]; exact Change.refl s
  | true =>
    have hk := (write_active c env ha period upstream frames).1
    exact .keeps hk.active hk.stopped fun h => absurd (ha.symm.trans h) (by decide)

/-- The event is an `on_activate` that returns SUCCESS. -/
def Activates (e : Event K n) (s : SafeSystem K n) : Prop :=
  ∃ upstream, e = .on_activate upstream ∧ (step c env e s).1 = .callback .SUCCESS

/-- Every legal event but the destruction is one of the three changes. -/
theorem step_change {m : Managed K n} (hi : StopInv m) (e : Event K n)
    (hl : Legal m.lifecycle e) (hd : e ≠ .destroy) :
    Change c (Activates c env e m.system) m.system (step c env e m.system).2 := by
  have hnot : m.lifecycle ≠ .destroyed := hl.not_destroyed
  cases e with
  | on_configure opened upstream =>
    simp only [step, on_configure]
    split
    · exact .keeps rfl rfl fun _ => Sends.of_bus_eq rfl
    · split
      · exact .keeps rfl rfl fun _ => Sends.of_bus_eq rfl
      · exact .keeps rfl rfl fun _ => Sends.of_bus_eq rfl
  | on_cleanup upstream =>
    exact (stop_once_change c env m.system (hi.flags hnot) (hi.wired hnot)).close c
  | on_activate upstream =>
    have hchange := (on_activate_change c env upstream m.system (hi.opened (Or.inl hl))
      (hi.idle (Or.inr (Or.inl hl)))).1
    exact hchange.mono c fun hr => ⟨upstream, rfl, by simp only [step, hr]⟩
  | on_deactivate upstream =>
    exact on_deactivate_change c env upstream m.system (hi.opened (Or.inr hl))
  | on_shutdown upstream =>
    exact (stop_once_change c env m.system (hi.flags hnot) (hi.wired hnot)).close c
  | on_error => exact stop_once_change c env m.system (hi.flags hnot) (hi.wired hnot)
  | perform_command_mode_switch starts stops upstream =>
    have hs := switch_silent c env starts stops upstream m.system
    exact .keeps hs.keeps.active hs.keeps.stopped fun _ => Sends.of_bus_eq hs.bus
  | set_command i position velocity effort => exact .keeps rfl rfl fun _ => Sends.of_bus_eq rfl
  | read upstream base => exact read_change c env upstream base m.system (hi.wired hnot)
  | write period upstream frames => exact write_change c env period upstream frames m.system
  | destroy => exact absurd rfl hd

theorem write_keeps (period : K) (upstream : ReturnType) (frames : List CanFrame)
    (s : SafeSystem K n) : Keeps s (write c env period upstream frames s).2 := by
  cases ha : s.active with
  | false => rw [write_inactive c env ha]; exact Keeps.refl s
  | true => exact (write_active c env ha period upstream frames).1

theorem Change.flags {s s' : SafeSystem K n} (h : Change c activates s s') (hf : s.active = !s.stopped) :
    s'.active = !s'.stopped := by
  cases h with
  | keeps ha hs _ => rw [ha, hs, hf]
  | stops ha hst => rw [ha, hst.stopped]; rfl
  | starts _ ha hs _ => rw [ha, hs]; rfl

theorem next_inv {m m' : Managed K n} {e : Event K n} (hi : StopInv m)
    (h : next c env m e m') : StopInv m' := by
  obtain ⟨hl, rfl⟩ := h
  unfold perform
  cases e with
  | on_configure opened upstream =>
    have ha := hi.idle (Or.inl hl)
    have hf := hi.flags (by rw [hl]; decide)
    have hchange := step_change c env hi (.on_configure opened upstream) hl (by simp)
    have hactive : (step c env (.on_configure opened upstream) m.system).2.active = false := by
      simp only [step, on_configure]
      split
      · exact ha
      · split <;> exact ha
    refine ⟨fun _ => hchange.flags c hf,
      fun _ h => absurd (hactive.symm.trans h) (by decide), fun _ => hactive, fun h => ?_⟩
    cases opened <;> cases upstream <;> simp_all [step, on_configure, after]
  | on_cleanup upstream =>
    refine StopInv.of_inactive (stop_once_inactive c env _) (stop_once_stopped c env _) ?_
    intro ho
    cases upstream <;> simp [step, on_cleanup, after] at ho
  | on_activate upstream =>
    have hs := hi.opened (Or.inl hl)
    have ha := hi.idle (Or.inr (Or.inl hl))
    have hf := hi.flags (by rw [hl]; decide)
    obtain ⟨hchange, hsocket, hactive⟩ := on_activate_change c env upstream m.system hs ha
    refine ⟨fun _ => hchange.flags c hf, fun _ _ => hsocket.trans hs, fun h => ?_,
      fun _ => hsocket.trans hs⟩
    cases hr : (on_activate c env upstream m.system).1 with
    | SUCCESS => simp [step, hr, after] at h
    | FAILURE | ERROR =>
      rw [hr] at hactive
      exact Bool.eq_false_of_not_eq_true fun h => CallbackReturn.noConfusion (hactive.mp h)
  | on_deactivate upstream =>
    have hstop := stop_motors_spec c env { m.system with active := false }
    exact StopInv.of_inactive hstop.active hstop.stopped
      fun _ => hstop.socket.trans (hi.opened (Or.inr hl))
  | on_shutdown upstream =>
    refine StopInv.of_inactive (stop_once_inactive c env _) (stop_once_stopped c env _) ?_
    intro ho
    cases upstream <;> simp [step, on_shutdown, after] at ho
  | on_error =>
    refine StopInv.of_inactive (stop_once_inactive c env _) (stop_once_stopped c env _) ?_
    intro ho
    simp [step, on_error, after] at ho
  | perform_command_mode_switch starts stops upstream =>
    exact hi.keep (switch_silent c env starts stops upstream m.system).keeps hl (Or.inl rfl)
  | set_command i position velocity effort => exact hi.keep ⟨rfl, rfl, rfl⟩ hl (Or.inl rfl)
  | read upstream base =>
    have hl' := (after_read_write m.lifecycle (read c env upstream base m.system).1).1 upstream base
    rcases read_cases c env upstream base m.system with ⟨t, hlook, _, he⟩ | ⟨t, hlook, he⟩
    · have hstop := stop_motors_spec c env { t with active := false }
      simp only [step, he]
      refine StopInv.of_inactive hstop.active hstop.stopped fun ho => ?_
      have hs := hstop.socket.trans hlook.keeps.socket
      rw [he] at hl'
      rcases hl' with h | h
      · exact hs.trans (hi.opened (h ▸ ho))
      · rw [h] at ho
        simp at ho
    · simp only [step, he]
      rw [he] at hl'
      exact hi.keep hlook.keeps hl hl'
  | write period upstream frames =>
    exact hi.keep (write_keeps c env period upstream frames m.system) hl
      ((after_read_write _ _).2 ..)
  | destroy => exact StopInv.destroyed _

/-- In every state that a run reaches. -/
theorem run_inv {es : List (Event K n)} {m : Managed K n} (hr : Run (next c env) {} es m) :
    StopInv m :=
  hr.invariant StopInv StopInv.start fun _ _ _ hi hn => next_inv c env hi hn

/-- The event ends an active phase, or is an activation that fails after the flag
`stopped_` was cleared. -/
def MustStop (e : Event K n) (s s' : SafeSystem K n) : Prop :=
  (s.active = true ∧ (s'.active = false ∨ e = .destroy)) ∨
    (e = .on_activate .SUCCESS ∧ (wait_for_status c env kActivationWait s).1 = true ∧
      (step c env e s).1 ≠ .callback .SUCCESS)

/-- An event of a run other than a successful activation. -/
def next_quiet (m : Managed K n) (e : Event K n) (m' : Managed K n) : Prop :=
  next c env m e m' ∧ ¬ Activates c env e m.system

theorem destroy_stops {s : SafeSystem K n} (hf : s.active = !s.stopped)
    (hwired : s.active = true → s.socket = true) (ha : s.active = true) :
    Stops c s (destroy c env s) := by
  have hs : s.stopped = false := by
    rw [ha] at hf
    exact (Bool.not_eq_true' _).mp hf.symm
  have hstop : Stops c s (stop_motors c env s) :=
    stop_motors_stops (Sends.refl (Harmless c) s) (hwired ha)
  unfold destroy
  rw [if_pos hs]
  exact ⟨hstop.stopped, hstop.frames⟩

/-- From a stopped component on, until it is activated again, nothing drives a motor. -/
theorem quiet_step {m m' : Managed K n} {e : Event K n} (hi : StopInv m)
    (hs : m.system.stopped = true) (h : next c env m e m') :
    Sends (Harmless c) m.system m'.system ∧
      (¬ Activates c env e m.system → m'.system.stopped = true) := by
  obtain ⟨hl, rfl⟩ := h
  unfold perform
  by_cases hd : e = .destroy
  · subst hd
    have he : destroy c env m.system = close_socket m.system := by simp [destroy, hs]
    simp only [step, he]
    exact ⟨Sends.of_bus_eq rfl, fun _ => hs⟩
  · have hnot : m.lifecycle ≠ .destroyed := hl.not_destroyed
    have ha : m.system.active = false := by rw [hi.flags hnot, hs]; rfl
    cases step_change c env hi e hl hd with
    | keeps _ hk hsend => exact ⟨hsend ha, fun _ => hk.trans hs⟩
    | stops _ hst => exact ⟨hst.sends, fun _ => hst.stopped⟩
    | starts hact _ _ hsend => exact ⟨hsend, fun hn => absurd hact hn⟩

theorem quiet_run {m m' : Managed K n} {es : List (Event K n)} (hi : StopInv m)
    (hs : m.system.stopped = true) (h : Run (next_quiet c env) m es m') :
    StopInv m' ∧ m'.system.stopped = true ∧ Sends (Harmless c) m.system m'.system := by
  induction h with
  | nil => exact ⟨hi, hs, Sends.refl _ _⟩
  | snoc _ hn ih =>
    obtain ⟨hi', hs', hsend⟩ := ih
    obtain ⟨hsend', hkeep⟩ := quiet_step c env hi' hs' hn.1
    exact ⟨next_inv c env hi' hn.1, hkeep hn.2, hsend.trans hsend'⟩

/-- An event that must stop the motors does. -/
theorem must_stop_stops {m m' : Managed K n} {e : Event K n} (hi : StopInv m)
    (h : next c env m e m') (hm : MustStop c env e m.system m'.system) :
    Stops c m.system m'.system := by
  obtain ⟨hl, rfl⟩ := h
  have hnot : m.lifecycle ≠ .destroyed := hl.not_destroyed
  by_cases hd : e = .destroy
  · subst hd
    rcases hm with ⟨ha, _⟩ | ⟨he, _⟩
    · exact destroy_stops c env (hi.flags hnot) (hi.wired hnot) ha
    · cases he
  · rcases hm with ⟨ha, hend⟩ | ⟨rfl, hready, hr⟩
    · have hend := hend.resolve_right hd
      cases step_change c env hi e hl hd with
      | keeps hk _ _ => exact absurd ((hk.trans ha).symm.trans hend) (by decide)
      | stops _ hst => exact hst
      | starts _ hs _ _ => exact absurd (hs.symm.trans hend) (by decide)
    · refine failed_activation_stops c env (hi.opened (Or.inl hl)) hready ?_
      intro h
      exact hr (by simp only [step, h])

/-- The motor stop invariant: between events exactly one of the two flags is set; an
event that ends an active phase stops every motor; and from a stop to the next
successful activation, that activation included, nothing sent drives a motor. -/
theorem motor_stop_invariant {es : List (Event K n)} {m : Managed K n}
    (hr : Run (next c env) {} es m) :
    (m.lifecycle ≠ .destroyed → m.system.active = !m.system.stopped) ∧
    (∀ e m', next c env m e m' → MustStop c env e m.system m'.system →
      Stops c m.system m'.system) ∧
    (m.system.stopped = true → ∀ fs m', Run (next_quiet c env) m fs m' →
      Sends (Harmless c) m.system m'.system ∧
      ∀ e m'', next c env m' e m'' → Sends (Harmless c) m'.system m''.system) := by
  have hi := run_inv c env hr
  refine ⟨hi.flags, fun e m' hn hm => must_stop_stops c env hi hn hm, ?_⟩
  intro hs fs m' hq
  obtain ⟨hi', hs', hsend⟩ := quiet_run c env hi hs hq
  exact ⟨hsend, fun e m'' hn => (quiet_step c env hi' hs' hn).1⟩

/-- An event within the active phase of the component. -/
def next_active (m : Managed K n) (e : Event K n) (m' : Managed K n) : Prop :=
  next c env m e m' ∧ m'.system.active = true ∧ e ≠ .destroy

/-- Nothing but the real-time events and the commands leaves an active component active. -/
theorem active_event {m m' : Managed K n} {e : Event K n} (hi : StopInv m)
    (ha : m.system.active = true) (hn : next_active c env m e m') :
    (∃ upstream base, e = .read upstream base) ∨
    (∃ starts stops upstream, e = .perform_command_mode_switch starts stops upstream) ∨
    (∃ i position velocity effort, e = .set_command i position velocity effort) ∨
    ∃ period upstream frames, e = .write period upstream frames := by
  obtain ⟨⟨hlegal, rfl⟩, ha', hd⟩ := hn
  have hidle : ∀ h : m.lifecycle = .unconfigured ∨ m.lifecycle = .inactive ∨
      m.lifecycle = .finalized, False := fun h =>
    absurd (ha.symm.trans (hi.idle h)) (by decide)
  have hstopped : (perform c env m e).system.active = false → False := fun h =>
    absurd (ha'.symm.trans h) (by decide)
  cases e with
  | on_configure opened upstream => exact (hidle (Or.inl hlegal)).elim
  | on_cleanup upstream => exact (hidle (Or.inr (Or.inl hlegal))).elim
  | on_activate upstream => exact (hidle (Or.inr (Or.inl hlegal))).elim
  | on_deactivate upstream => exact (hstopped (stop_motors_spec c env _).active).elim
  | on_shutdown upstream => exact (hstopped (stop_once_inactive c env m.system)).elim
  | on_error => exact (hstopped (stop_once_inactive c env m.system)).elim
  | perform_command_mode_switch starts stops upstream =>
    exact Or.inr (Or.inl ⟨starts, stops, upstream, rfl⟩)
  | set_command i position velocity effort =>
    exact Or.inr (Or.inr (Or.inl ⟨i, position, velocity, effort, rfl⟩))
  | write period upstream frames => exact Or.inr (Or.inr (Or.inr ⟨period, upstream, frames, rfl⟩))
  | destroy => exact absurd rfl hd
  | read upstream base => exact Or.inl ⟨upstream, base, rfl⟩

/-- One joint with a position command, driven backwards by motor 1. -/
def gizmo : Component ℚ 1 where
  joint _ :=
    { name := "gizmo"
      can_id := 1
      direction := -1
      enc_off := 0
      kt := 1
      gear_ratio := 1
      zero_on_activate := false
      position_commanded := true
      has_position_limits := true
      min_position := .fin (-1)
      max_position := .fin 1
      max_velocity := 2
      stall_effort := 0
      stall_time := 500
      base_state := fun _ => true
      base_command := fun _ => true }
  status_timeout := 100
  brake_time := 60
  valid _ :=
    { direction := Or.inr rfl
      gear_ratio := by decide +kernel
      stall_effort := by decide +kernel
      max_velocity := fun _ => by decide +kernel
      limits := fun _ => ⟨-1, 1, rfl, rfl, by decide +kernel⟩ }
  can_ids := fun _ _ _ => Subsingleton.elim _ _

def status_frame (can_id : Nat) (fault : UInt8) : RxFrame :=
  ⟨true, can_id, 8, fun k => if k.val = 7 then fault else 0⟩

/-- Every drain finds one frame of motor 1; the one of drain `k` reports a fault. -/
def fault_at (k : Nat) : Env where
  clock := SteadyClock.ticking 10000000 (by decide)
  written _ := true
  batch drain := ⟨[status_frame 1 (if drain = k then 3 else 0)], false⟩

def configured (k : Nat) : Managed ℚ 1 :=
  perform gizmo (fault_at k) {} (.on_configure true .SUCCESS)

def started_up (k : Nat) : Managed ℚ 1 :=
  perform gizmo (fault_at k) (configured k) (.on_activate .SUCCESS)

theorem started_up_run (k : Nat) : Run (next gizmo (fault_at k)) {}
    [.on_configure true .SUCCESS, .on_activate .SUCCESS] (started_up k) := by
  have h1 : next gizmo (fault_at k) {} (.on_configure true .SUCCESS) (configured k) := ⟨rfl, rfl⟩
  have h2 : next gizmo (fault_at k) (configured k) (.on_activate .SUCCESS) (started_up k) :=
    ⟨rfl, rfl⟩
  exact (Run.single h1).snoc h2

/-- The first `read` of an active component finds a fault. -/
theorem motor_stop_invariant_on_fault :
    Stops gizmo (started_up 2).system
      (perform gizmo (fault_at 2) (started_up 2) (.read .OK fun _ _ => .nan)).system := by
  have hl : (started_up 2).lifecycle ≠ .destroyed := by decide +kernel
  have ha : (started_up 2).system.active = true := by decide +kernel
  exact (motor_stop_invariant gizmo (fault_at 2) (started_up_run 2)).2.1
    (.read .OK fun _ _ => .nan) _ ⟨hl, rfl⟩ (Or.inl ⟨ha, Or.inl (by decide +kernel)⟩)

end IotRobot.Safe
