import Mathlib.Data.Rat.Floor
import IotRobot.Lib.Traces
import IotRobot.Web.Effects

/-!
# Only a live, authorised command drives

In every state of a run the stored command is either too old to be sent or the last one
that `drive` accepted, with the driver lock still held by the client it came from and no
call since that should have dropped it.
-/

namespace IotRobot.Web

open Lib

set_option autoImplicit false

section Authority
variable {K Client V : Type} [Field K] [LinearOrder K] [FloorRing K] [DecidableEq Client]
variable (c : Parameters K) (float : V → FloatResult K)

/-- `e` is a call of `drive` that stores `command` for `client`: with the E-stop released,
and with the driver lock free or the client's own and then its own. -/
structure Accepts (client : Client) (command : Command K) (m : Node K Client)
    (e : Event K Client V) (m' : Node K Client) : Prop where
  next : next c float m e m'
  call : ∃ linear angular speed, e.op = .drive client linear angular speed ∧
    (m.bridge.drive c float e.now client linear angular speed).1 = .ok .ok ∧
    scale_command float linear angular speed c.max_linear c.max_angular c.turbo_speed =
      .ok (command.linear, command.angular)
  time : command.time = e.now
  released : m.bridge.estop = false
  free : m.bridge.driver_lock.FreeFor client e.now
  driver : m'.bridge.driver_lock.driver = some client
  last_command : m'.bridge.driver_lock.last_command = .fin e.now

/-- A step that leaves a command of `client`'s undisturbed. -/
def quiet (client : Client) (m : Node K Client) (e : Event K Client V) (m' : Node K Client) :
    Prop :=
  next c float m e m' ∧ Undisturbed c float client m.bridge e

/-- In the run `es` from the start to `m`, `command` is the last command that `drive`
accepted, it came from `client`, and nothing has disturbed it since. -/
def LastAccepted (t : K) (es : List (Event K Client V)) (m : Node K Client) (client : Client)
    (command : Command K) : Prop :=
  ∃ before e since m1 m2, es = before ++ e :: since ∧
    Run (next c float) (start c t) before m1 ∧ Accepts c float client command m1 e m2 ∧
    Run (quiet c float client) m2 since m

theorem LastAccepted.snoc {t : K} {es : List (Event K Client V)} {m m' : Node K Client}
    {e : Event K Client V} {client : Client} {command : Command K}
    (h : LastAccepted c float t es m client command) (hq : quiet c float client m e m') :
    LastAccepted c float t (es ++ [e]) m' client command := by
  obtain ⟨before, d, since, m1, m2, rfl, hr, ha, hs⟩ := h
  exact ⟨before, d, since ++ [e], m1, m2, by simp, hr, ha, hs.snoc hq⟩

/-- The client's lock is at least as recent as its command. -/
structure Holds (client : Client) (command : Command K) (m : Node K Client) : Prop where
  driver : m.bridge.driver_lock.driver = some client
  last_command : ∃ x, m.bridge.driver_lock.last_command = .fin x ∧ command.time ≤ x

/-- The invariant of a run `es` that has reached `m`. -/
structure Authorised (t : K) (es : List (Event K Client V)) (m : Node K Client) : Prop where
  timeout : m.bridge.driver_lock.timeout = c.driver_timeout
  estopped : m.bridge.estop = true → m.bridge.command = none
  command : ∀ command, m.bridge.command = some command →
    c.command_timeout ≤ m.clock - command.time ∨
      ∃ client, LastAccepted c float t es m client command ∧ Holds client command m

theorem Authorised.start (t : K) :
    Authorised c float t ([] : List (Event K Client V)) (start c t) := by
  have hinit : (RobotBridge.init c t : RobotBridge K Client).command = none ∧
      (RobotBridge.init c t : RobotBridge K Client).driver_lock.timeout = c.driver_timeout := by
    unfold RobotBridge.init
    dsimp only
    split <;> exact ⟨rfl, rfl⟩
  refine ⟨hinit.2, fun _ => hinit.1, fun command h => ?_⟩
  change (RobotBridge.init c t : RobotBridge K Client).command = some command at h
  rw [hinit.1] at h
  cases h

variable [IsStrictOrderedRing K]

omit [FloorRing K] [DecidableEq Client] in
/-- A lock that has run out belongs to a driver that has been idle for `driver_timeout`. -/
theorem idle_of_expired {m : Node K Client}
    (ht : m.bridge.driver_lock.timeout = c.driver_timeout) {client : Client}
    {command : Command K} (hh : Holds client command m) {now : K}
    (he : ¬ m.bridge.driver_lock.HeldBy client now) :
    c.driver_timeout ≤ now - command.time := by
  obtain ⟨x, hx, hcx⟩ := hh.last_command
  have hexp : m.bridge.driver_lock.expired now = true := by
    by_contra hf
    exact he ⟨hh.driver, Bool.eq_false_iff.mpr hf⟩
  unfold DriverLock.expired at hexp
  rw [hx, Dbl.fin_sub_fin, decide_eq_true_iff, Dbl.fin_le_fin, ht] at hexp
  linarith

theorem Authorised.step (hle : c.command_timeout ≤ c.driver_timeout) {t : K}
    {es : List (Event K Client V)} {m m' : Node K Client} {e : Event K Client V}
    (h : Authorised c float t es m) (hr : Run (next c float) (Web.start c t) es m)
    (hn : next c float m e m') : Authorised c float t (es ++ [e]) m' := by
  have hcase := perform_command c float e m.bridge h.estopped
  have hm' := hn.2
  subst hm'
  cases hcase with
  | dropped hc ht =>
    refine ⟨ht.trans h.timeout, fun _ => hc, fun command hcommand => ?_⟩
    rw [hc] at hcommand
    cases hcommand
  | stored client linear_axis angular_axis speed linear angular hop hok hscale hs hs' hfree hc hl =>
    refine ⟨?_, fun hestop => ?_, fun command hcommand => .inr ⟨client, ?_, ?_⟩⟩
    · rw [hl]
      exact h.timeout
    · rw [hs'] at hestop
      cases hestop
    · rw [hc] at hcommand
      obtain rfl := Option.some.inj hcommand
      refine ⟨es, e, [], m, _, rfl, hr, ?_, .nil⟩
      exact ⟨hn, ⟨linear_axis, angular_axis, speed, hop, hok, hscale⟩, rfl, hs, hfree,
        by rw [hl]; rfl, by rw [hl]; rfl⟩
    · rw [hc] at hcommand
      obtain rfl := Option.some.inj hcommand
      refine ⟨by rw [hl]; rfl, e.now, by rw [hl]; rfl, le_refl _⟩
  | kept hc hs ht hl =>
    refine ⟨ht.trans h.timeout, fun hestop => hc.trans (h.estopped (hs hestop)), ?_⟩
    intro command hcommand
    rw [hc] at hcommand
    rcases h.command command hcommand with hdead | ⟨client, hlast, hholds⟩
    · left
      have hclock := hn.1
      change c.command_timeout ≤ e.now - command.time
      linarith
    · by_cases hheld : m.bridge.driver_lock.HeldBy client e.now
      · right
        obtain ⟨hlock, hu⟩ := hl client hheld
        refine ⟨client, hlast.snoc c float ⟨hn, hu⟩, ?_⟩
        rcases hlock with hlock | hlock
        · exact ⟨by rw [hlock]; exact hholds.driver, by rw [hlock]; exact hholds.last_command⟩
        · -- the client's own request renews the lock
          obtain ⟨before, d, since, m1, m2, _, _, ha, hrun⟩ := hlast
          have hclock := run_clock c float (hrun.mono fun _ _ _ h => h.1)
          have htime : command.time ≤ e.now := by
            rw [ha.time]
            have h2 := ha.next.2
            subst h2
            exact hclock.trans hn.1
          exact ⟨by rw [hlock]; rfl, e.now, by rw [hlock]; rfl, htime⟩
      · left
        exact hle.trans (idle_of_expired c h.timeout hholds hheld)

theorem Authorised.run (hle : c.command_timeout ≤ c.driver_timeout) {t : K}
    {es : List (Event K Client V)} {m : Node K Client} (hr : Run (next c float) (Web.start c t) es m) :
    Authorised c float t es m := by
  induction hr with
  | nil => exact Authorised.start c float t
  | snoc hr hn ih => exact ih.step c float hle hr hn

/-- A twist that is not zero comes from the drive timer and is what the guard leaves of the
last accepted command, which is younger than `command_timeout`, came from the holder of the
driver lock while the E-stop was released, and has not been disturbed since. -/
theorem only_live_commands_drive (hle : c.command_timeout ≤ c.driver_timeout) {t : K}
    {es : List (Event K Client V)} {m m' : Node K Client} {e : Event K Client V}
    (hr : Run (next c float) (start c t) es m) (hn : next c float m e m') {linear angular : K}
    (hsent : .twist linear angular ∈ sent_in m.bridge m'.bridge)
    (hne : linear ≠ 0 ∨ angular ≠ 0) :
    e.op = .on_drive_timer ∧ ∃ client command,
      LastAccepted c float t es m client command ∧
      e.now - command.time < c.command_timeout ∧
      linear = guarded_linear c e.now m.bridge command.linear ∧
      angular = command.angular := by
  have hauth := Authorised.run c float hle hr
  obtain ⟨new, hsends, happ⟩ := perform_sends c float e m.bridge
  have hm' := hn.2
  subst hm'
  rw [sent_in_append happ] at hsent
  obtain ⟨hop, command, hlive, hlinear, hangular⟩ := nonzero_twist c hsends hsent hne
  obtain ⟨hcommand, hyoung⟩ := Option.filter_eq_some_iff.mp hlive
  simp only [Bool.not_eq_true', decide_eq_false_iff_not, not_le] at hyoung
  refine ⟨hop, ?_⟩
  rcases hauth.command command hcommand with hdead | ⟨client, hlast, _⟩
  · have hclock := hn.1
    linarith
  · exact ⟨client, command, hlast, hyoung, hlinear, hangular⟩

end Authority

section Concrete

/-- Browser numbers that are already doubles. -/
abbrev Call := Event Rat String (Dbl Rat)

abbrev float_of (value : Dbl Rat) : FloatResult Rat := .value value

/-- Both sides clear, then "phone" drives forward at 100 %. -/
def drive_off : List Call :=
  [⟨1 / 10, .on_range .left .pinf⟩, ⟨1 / 10, .on_range .right .pinf⟩,
    ⟨1 / 5, .drive "phone" (.fin 1) (.fin 0) (.fin 1)⟩]

def tick : Call := ⟨7 / 20, .on_drive_timer⟩

/-- The state of the node after `es`, with the values of `web_controller.yaml`. -/
abbrev reached (es : List Call) : Node Rat String :=
  after web_controller_yaml float_of (start web_controller_yaml 0) es

theorem drive_off_sends :
    sent_in (reached drive_off).bridge (reached (drive_off ++ [tick])).bridge =
      [.twist (2 / 5) 0] := by
  decide +kernel

theorem only_live_commands_drive_forward :
    tick.op = .on_drive_timer ∧ ∃ client command,
      LastAccepted web_controller_yaml float_of 0 drive_off (reached drive_off) client command ∧
      tick.now - command.time < (web_controller_yaml : Parameters Rat).command_timeout ∧
      2 / 5 = guarded_linear web_controller_yaml tick.now (reached drive_off).bridge
        command.linear ∧
      0 = command.angular :=
  have hn : next web_controller_yaml float_of (reached drive_off) tick
      (reached (drive_off ++ [tick])) := ⟨by decide +kernel, rfl⟩
  only_live_commands_drive web_controller_yaml float_of (by decide +kernel)
    (run_after _ _ _ _ (by decide +kernel)) hn (drive_off_sends ▸ List.mem_singleton_self _)
    (.inl (by decide +kernel))

/-- The E-stop is engaged and released, and `drive` accepts a command. Then another node
engages it; the filter takes the message for the echo of the node's own engagement, which
is still outstanding. -/
def hidden_engagement : List Call :=
  [⟨0, .set_estop true⟩, ⟨1 / 20, .set_estop false⟩] ++ drive_off ++
    [⟨3 / 10, .on_estop true⟩]

theorem hidden_engagement_sends :
    sent_in (reached hidden_engagement).bridge (reached (hidden_engagement ++ [tick])).bridge =
      [.twist (2 / 5) 0] := by
  decide +kernel

/-- So the last accepted command may be sent although another node has engaged the E-stop
since. -/
theorem engagement_hidden_by_echo :
    ¬ ∀ (es : List Call) (m m' : Node Rat String) (e : Call) (linear angular : Rat),
      Run (next web_controller_yaml float_of) (start web_controller_yaml 0) es m →
      next web_controller_yaml float_of m e m' →
      .twist linear angular ∈ sent_in m.bridge m'.bridge → linear ≠ 0 ∨ angular ≠ 0 →
      ∃ client command before call since m1 m2, es = before ++ call :: since ∧
        Accepts web_controller_yaml float_of client command m1 call m2 ∧
        ∀ d ∈ since, d.op ≠ .on_estop true := by
  intro hclaim
  obtain ⟨client, command, before, call, since, m1, m2, hes, ha, hsince⟩ :=
    hclaim hidden_engagement (reached hidden_engagement)
      (reached (hidden_engagement ++ [tick])) tick (2 / 5) 0
      (run_after _ _ _ _ (by decide +kernel)) ⟨by decide +kernel, rfl⟩
      (hidden_engagement_sends ▸ List.mem_singleton_self _) (.inl (by decide +kernel))
  -- the engagement is the last call of the run
  rcases split_snoc hes with ⟨rest, -, rfl⟩ | ⟨rfl, -, -⟩
  · exact hsince _ (List.mem_append_right _ (List.mem_singleton_self _)) rfl
  · obtain ⟨_, _, _, hop, _⟩ := ha.call
    cases hop

end Concrete

end IotRobot.Web
