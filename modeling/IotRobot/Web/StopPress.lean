import IotRobot.Web.Authority
import IotRobot.Web.Page

/-!
# A STOP press on the page

A press that reaches `engage` is kept until telemetry confirms it. Space and Escape do not
reach it while the page takes the E-stop for engaged. The page takes this from the last
telemetry that it applied, and another page may have released the E-stop since.
-/

namespace IotRobot.Web

open Lib

set_option autoImplicit false

section Requests
variable {K Client V : Type} [Field K] [LinearOrder K] [FloorRing K] [DecidableEq Client]
variable (c : Parameters K) (float : V → FloatResult K)

/-- The E-stop is as the last request left it. -/
theorem perform_requests (e : Event K Client V) (s : RobotBridge K Client) :
    (perform c float e s).estop = (estop_requests e s).getLast?.getD s.estop := by
  have huntouched := (perform_untouched c float e s).estop
  obtain ⟨now, op⟩ := e
  cases op with
  | set_estop engaged => cases engaged <;> rfl
  | on_estop engaged =>
    simp only [perform, RobotBridge.on_estop, estop_requests]
    cases (s.estop_echo.is_echo engaged now).1 with
    | true => rfl
    | false =>
      simp only [Bool.false_eq_true, if_false]
      split
      · next hsame => exact hsame.symm
      · cases engaged <;> rfl
  | on_estop_timer =>
    simp only [perform, RobotBridge.on_estop_timer]
    split <;> rfl
  | on_estop_startup =>
    simp only [perform, RobotBridge.on_estop_startup]
    split <;> rfl
  | _ => exact (huntouched rfl).1

end Requests

namespace Link
variable {K Client : Type} {s s' : Link K Client}

/-- The server's E-stop was `engaged` when the log had length `k`. -/
def At (s : Link K Client) (k : Nat) (engaged : Bool) : Prop :=
  k ≤ s.log.length ∧ s.server.bridge.estop = (s.log.drop k).getLast?.getD engaged

structure PageInv (s : Link K Client) : Prop where
  released : ∀ pending, s.page.estop_pending = some pending → pending.value = false →
    s.page.estop = false
  shown : s.page.estop = true → s.page.estop_pending = none → s.At s.shown true
  coming : ∀ engaged k, .state engaged k ∈ s.down → s.At k engaged

/-- A step of the page: the server and its log stay, and no message to the page is new. -/
structure Aside (s s' : Link K Client) : Prop where
  server : s'.server = s.server
  log : s'.log = s.log
  down : ∀ message ∈ s'.down, message ∈ s.down

theorem Aside.at_iff (h : Aside s s') {k : Nat} {engaged : Bool} :
    s'.At k engaged ↔ s.At k engaged := by
  rw [At, At, h.server, h.log]

/-- The page after a step of its own. -/
theorem PageInv.page (h : s.PageInv) (haside : Aside s s')
    (hreleased : ∀ pending, s'.page.estop_pending = some pending → pending.value = false →
      s'.page.estop = false)
    (hshown : s'.page.estop = true → s'.page.estop_pending = none → s.At s'.shown true) :
    s'.PageInv :=
  ⟨hreleased, fun hestop hnone => haside.at_iff.mpr (hshown hestop hnone),
    fun engaged k hm => haside.at_iff.mpr (h.coming engaged k (haside.down _ hm))⟩

/-- A step that leaves the page's view of the E-stop alone. -/
theorem PageInv.same (h : s.PageInv) (haside : Aside s s') (hestop : s'.page.estop = s.page.estop)
    (hpending : s'.page.estop_pending = s.page.estop_pending) (hmark : s'.shown = s.shown) :
    s'.PageInv := by
  refine h.page haside (fun pending hp hv => ?_) fun he hnone => ?_
  · rw [hestop]
    exact h.released pending (hpending ▸ hp) hv
  · rw [hmark]
    exact h.shown (hestop ▸ he) (hpending ▸ hnone)

/-- A message to the page has been taken from those on their way. -/
theorem PageInv.taken (h : s.PageInv) {down : List PageMessage} (hdown : down ⊆ s.down) :
    PageInv { s with down := down } :=
  h.same ⟨rfl, rfl, fun _ hm => hdown hm⟩ rfl rfl rfl

section Page
variable [Field K] (now : K)

theorem engage_pending : (s.engage now).page.estop_pending = some ⟨true, now + ESTOP_CONFIRM_MS⟩ ∧
    Aside s (s.engage now) := by
  unfold engage send
  dsimp only
  split
  · exact ⟨rfl, rfl, rfl, fun _ hm => hm⟩
  · exact ⟨rfl, rfl, rfl, fun _ hm => hm⟩

theorem PageInv.engage (h : s.PageInv) : (s.engage now).PageInv := by
  obtain ⟨hpending, haside⟩ := engage_pending (s := s) now
  refine h.page haside (fun pending hp hv => ?_) fun _ hnone => ?_
  · rw [hpending] at hp
    obtain rfl := Option.some.inj hp
    cases hv
  · rw [hpending] at hnone
    cases hnone

theorem PageInv.release (h : s.PageInv) : (s.release now).PageInv := by
  unfold Link.release send
  by_cases hopen : s.page.ws = some .OPEN
  · rw [if_pos hopen]
    exact h.page ⟨rfl, rfl, fun _ hm => hm⟩ (fun _ _ _ => rfl) (by rintro ⟨⟩)
  · rw [if_neg hopen]
    exact h.same ⟨rfl, rfl, fun _ hm => hm⟩ rfl rfl rfl

theorem PageInv.keydown (h : s.PageInv) (key : Key) (modified : Bool) :
    (s.keydown now key modified).PageInv := by
  unfold Link.keydown
  split
  · exact h
  split
  · split
    · exact h.engage now
    · exact h
  · exact h

theorem PageInv.button_down (h : s.PageInv) : (s.button_down now).PageInv := by
  unfold Link.button_down
  split
  · exact h.engage now
  split
  · exact h
  · exact h.same ⟨rfl, rfl, fun _ hm => hm⟩ rfl rfl rfl

theorem PageInv.on_hello (h : s.PageInv) (ui_version : String) :
    (s.on_hello now ui_version).PageInv := by
  have hrest : ∀ t : Link K Client, t.PageInv →
      (if t.page.ui_version ≠ none ∧ t.page.ui_version ≠ some ui_version then
        { t with page := {}, down := [] }
      else { t with page := { t.page with ui_version := some ui_version, connected := true } }
        ).PageInv := by
    intro t ht
    split
    · exact ht.page ⟨rfl, rfl, nofun⟩ nofun (by rintro ⟨⟩)
    · exact ht.same ⟨rfl, rfl, fun _ hm => hm⟩ rfl rfl rfl
  unfold Link.on_hello
  refine hrest _ ?_
  cases hpending : s.page.estop_pending with
  | none => exact h
  | some pending =>
    dsimp only
    split
    · unfold send
      by_cases hopen : s.page.ws = some .OPEN
      · rw [if_pos hopen]
        refine h.page ⟨rfl, rfl, fun _ hm => hm⟩ (fun pending hp hv => ?_) (by rintro _ ⟨⟩)
        obtain rfl := Option.some.inj hp
        cases hv
      · rw [if_neg hopen]
        exact h
    · exact h

variable [LinearOrder K]

omit [Field K] in
theorem PageInv.on_state (h : s.PageInv) {engaged : Bool} {k : Nat} (hat : s.At k engaged) :
    (s.on_state now engaged k).PageInv := by
  have happly : ∀ t : Link K Client, Aside s t → (t.apply_estop engaged k).PageInv := by
    intro t ht
    refine h.page ⟨ht.server, ht.log, ht.down⟩ nofun fun hestop _ => ?_
    rw [show engaged = true from hestop] at hat
    exact hat
  unfold Link.on_state
  dsimp only
  split
  · split
    · exact happly _ ⟨rfl, rfl, fun _ hm => hm⟩
    split
    · exact h.same ⟨rfl, rfl, fun _ hm => hm⟩ rfl rfl rfl
    · exact happly _ ⟨rfl, rfl, fun _ hm => hm⟩
  · split
    · exact happly _ ⟨rfl, rfl, fun _ hm => hm⟩
    · exact happly _ ⟨rfl, rfl, fun _ hm => hm⟩

theorem PageInv.receive (h : s.PageInv) (hs : s.receive now = some s') : s'.PageInv := by
  unfold Link.receive at hs
  split at hs
  · cases hs
  · next ui_version down hdown =>
    cases hs
    have hrest : PageInv { s with down := down } :=
      h.taken (hdown ▸ List.subset_cons_self _ _)
    exact hrest.on_hello now ui_version
  · next engaged k down hdown =>
    cases hs
    have hrest : PageInv { s with down := down } :=
      h.taken (hdown ▸ List.subset_cons_self _ _)
    have hat : s.At k engaged := h.coming engaged k (hdown ▸ List.mem_cons_self)
    exact hrest.on_state now hat

theorem PageInv.hold_tick (h : s.PageInv) : (s.hold_tick now).PageInv := by
  have hcancelled : s.cancel_hold.PageInv := h.same ⟨rfl, rfl, fun _ hm => hm⟩ rfl rfl rfl
  unfold Link.hold_tick
  split
  · exact h
  split
  · exact hcancelled.release now
  · exact h

end Page

variable {V : Type} [Field K] [LinearOrder K] [FloorRing K] [DecidableEq Client]
variable (c : Parameters K) (float : V → FloatResult K)

/-- Calls of the bridge carry the past states along. -/
theorem At.call {k : Nat} {engaged : Bool} (h : s.At k engaged) (e : Event K Client V) :
    (s.call c float e).At k engaged := by
  obtain ⟨hlength, hestop⟩ := h
  refine ⟨?_, ?_⟩
  · show k ≤ (s.log ++ _).length
    rw [List.length_append]
    exact Nat.le_add_right_of_le hlength
  · show (perform c float e s.server.bridge).estop =
      ((s.log ++ estop_requests e s.server.bridge).drop k).getLast?.getD engaged
    rw [perform_requests, hestop, List.drop_append_of_le_length hlength, List.getLast?_append]
    cases (estop_requests e s.server.bridge).getLast? with
    | none => rfl
    | some value => rfl

theorem PageInv.call (h : s.PageInv) (e : Event K Client V) : (s.call c float e).PageInv :=
  ⟨h.released, fun hestop hnone => (h.shown hestop hnone).call c float e,
    fun engaged k hm => (h.coming engaged k hm).call c float e⟩

omit [DecidableEq Client] in
/-- A snapshot shows the E-stop as it is. -/
theorem snapshot_estop {bridge : RobotBridge K Client} {telemetry : Telemetry K Client}
    {now : K} (h : (bridge.snapshot c now).1 = .ok telemetry) : telemetry.estop = bridge.estop := by
  unfold RobotBridge.snapshot at h
  dsimp only at h
  split at h
  · cases h
  · cases h
    rfl

theorem taken_page {step : LinkStep K Client V} (h : s.PageInv)
    (hs : s.taken c float step = some s') : s'.PageInv := by
  cases step with
  | connect =>
    obtain ⟨-, hs⟩ := Option.ite_none_right_eq_some.mp hs
    cases hs
    exact h.same ⟨rfl, rfl, fun _ hm => hm⟩ rfl rfl rfl
  | opened ui_version =>
    obtain ⟨-, hs⟩ := Option.ite_none_right_eq_some.mp hs
    cases hs
    refine ⟨h.released, h.shown, fun engaged k hm => ?_⟩
    cases List.mem_singleton.mp hm
  | closing =>
    obtain ⟨-, hs⟩ := Option.ite_none_left_eq_some.mp hs
    cases hs
    exact h.same ⟨rfl, rfl, fun _ hm => hm⟩ rfl rfl rfl
  | closed =>
    obtain ⟨-, hs⟩ := Option.ite_none_left_eq_some.mp hs
    cases hs
    exact h.same ⟨rfl, rfl, nofun⟩ rfl rfl rfl
  | receive now => exact h.receive now hs
  | keydown key modified now =>
    cases hs
    exact h.keydown now key modified
  | button_down now =>
    cases hs
    exact h.button_down now
  | button_up =>
    cases hs
    exact h.same ⟨rfl, rfl, fun _ hm => hm⟩ rfl rfl rfl
  | frame now =>
    cases hs
    exact h.hold_tick now
  | arrives i now =>
    obtain ⟨engaged, -, rfl⟩ := Option.map_eq_some_iff.mp hs
    have hrest : PageInv { s with up := s.up.eraseIdx i } :=
      h.same ⟨rfl, rfl, fun _ hm => hm⟩ rfl rfl rfl
    exact hrest.call c float _
  | lost i =>
    obtain ⟨-, hs⟩ := Option.ite_none_right_eq_some.mp hs
    cases hs
    exact h.same ⟨rfl, rfl, fun _ hm => hm⟩ rfl rfl rfl
  | snapshot now =>
    obtain ⟨-, hs⟩ := Option.ite_none_right_eq_some.mp hs
    split at hs
    · cases hs
    · next telemetry htelemetry =>
      cases hs
      have hestop : telemetry.estop = s.server.bridge.estop := snapshot_estop c htelemetry
      have hsent : PageInv { s with down := s.down ++ [.state telemetry.estop s.log.length] } := by
        refine ⟨h.released, h.shown, fun engaged k hm => ?_⟩
        rcases List.mem_append.mp hm with hm | hm
        · exact h.coming engaged k hm
        · cases List.mem_singleton.mp hm
          refine ⟨le_refl _, ?_⟩
          show s.server.bridge.estop = (s.log.drop s.log.length).getLast?.getD telemetry.estop
          rw [List.drop_length, hestop]
          rfl
      exact hsent.call c float _
  | call e =>
    cases hs
    exact h.call c float e

omit [LinearOrder K] [FloorRing K] [DecidableEq Client] in
theorem start_page (t : K) : (start c t : Link K Client).PageInv :=
  ⟨nofun, nofun, nofun⟩

/-- A STOP press: Space or Escape at the key handler of the window, or a press on the button
while it shows Stop. -/
def StopPress (s : Link K Client) (step : LinkStep K Client V) : Prop :=
  match step with
  | .keydown key modified _ => modified = false ∧ (key = .Space ∨ key = .Escape)
  | .button_down _ => s.page.estop = false
  | _ => False

/-- An engage message is on its way, an engage is pending, or the server's E-stop is
engaged. -/
def Kept (s : Link K Client) : Prop :=
  true ∈ s.up ∨ (∃ pending, s.page.estop_pending = some pending ∧ pending.value = true) ∨
    s.server.bridge.estop = true

def Heeded (s : Link K Client) (step : LinkStep K Client V) (s' : Link K Client) : Prop :=
  s.StopPress step → s'.Kept

/-- The page shows the E-stop as engaged and waits for nothing, no engage is on its way, and
the last request that the server obeyed since the snapshot on the page was a release. -/
structure Stale (s : Link K Client) : Prop where
  engaged : s.page.estop = true
  settled : s.page.estop_pending = none
  unsent : true ∉ s.up
  released : (s.log.drop s.shown).getLast? = some false

/-- Space and Escape are not pressed while the page is stale. -/
def Fresh (s : Link K Client) (step : LinkStep K Client V) : Prop :=
  ∀ key now, step = .keydown key false now → key = .Space ∨ key = .Escape → ¬ s.Stale

omit [LinearOrder K] [FloorRing K] [DecidableEq Client] in
/-- A press that reaches `engage` is kept. -/
theorem engage_kept (now : K) : (s.engage now).Kept :=
  .inr (.inl ⟨_, (engage_pending now).1, rfl⟩)

omit [Field K] [LinearOrder K] [FloorRing K] [DecidableEq Client] in
/-- Nothing stands for a press that the page drops exactly if the page is stale. -/
theorem PageInv.dropped (h : s.PageInv) (hengaged : s.page.estop = true) :
    s.Kept ↔ ¬ s.Stale := by
  cases hpending : s.page.estop_pending with
  | some pending =>
    have hvalue : pending.value = true := by
      by_contra hreleased
      have hestop : s.page.estop = false :=
        h.released pending hpending (Bool.eq_false_of_not_eq_true hreleased)
      cases hengaged.symm.trans hestop
    refine iff_of_true (.inr (.inl ⟨pending, hpending, hvalue⟩)) fun hstale => ?_
    cases hpending.symm.trans hstale.settled
  | none =>
    obtain ⟨-, hestop⟩ := h.shown hengaged hpending
    have hserver : s.server.bridge.estop = true ↔ (s.log.drop s.shown).getLast? ≠ some false := by
      rw [hestop]
      cases (s.log.drop s.shown).getLast? with
      | none => decide
      | some value => cases value <;> decide
    constructor
    · rintro (hup | ⟨pending, hp, -⟩ | hengaged) hstale
      · exact hstale.unsent hup
      · cases hpending.symm.trans hp
      · exact hserver.mp hengaged hstale.released
    · intro hfresh
      by_cases hup : true ∈ s.up
      · exact .inl hup
      · exact .inr (.inr (hserver.mpr fun hlast => hfresh ⟨hengaged, hpending, hup, hlast⟩))

theorem heeded_iff {step : LinkStep K Client V} (h : s.PageInv)
    (hs : s.taken c float step = some s') : s.Heeded step s' ↔ s.Fresh step := by
  cases step with
  | keydown key modified now =>
    cases hs
    by_cases hpress : modified = false ∧ (key = .Space ∨ key = .Escape)
    · obtain ⟨rfl, hkey⟩ := hpress
      have hfresh : s.Fresh (.keydown key false now : LinkStep K Client V) ↔ ¬ s.Stale := by
        refine ⟨fun hfresh => hfresh key now rfl hkey, fun hfresh key' now' heq _ => hfresh⟩
      have hheeded : s.Heeded (.keydown key false now : LinkStep K Client V)
          (s.keydown now key false) ↔ (s.keydown now key false).Kept :=
        ⟨fun hkept => hkept ⟨rfl, hkey⟩, fun hkept _ => hkept⟩
      rw [hheeded, hfresh]
      unfold Link.keydown
      rw [if_neg Bool.false_ne_true, if_pos hkey]
      cases hengaged : s.page.estop with
      | false =>
        refine iff_of_true (engage_kept now) fun hstale => ?_
        cases hengaged.symm.trans hstale.engaged
      | true => exact h.dropped hengaged
    · refine iff_of_true (fun hstop => absurd hstop hpress) fun key' now' heq hkey => ?_
      cases heq
      exact absurd ⟨rfl, hkey⟩ hpress
  | button_down now =>
    cases hs
    refine iff_of_true (fun hstop => ?_) nofun
    have hestop : s.page.estop = false := hstop
    unfold Link.button_down
    rw [if_pos hestop]
    exact engage_kept now
  | _ => exact iff_of_true nofun nofun

/-- A STOP press is kept in every run in which Space and Escape are not pressed on a stale
page, and in no other. -/
theorem presses_kept {steps : List (LinkStep K Client V)} (t : K) :
    Run (fun s step s' => next c float s step s' ∧ s.Heeded step s') (start c t) steps s ↔
      Run (fun s step s' => next c float s step s' ∧ s.Fresh step) (start c t) steps s := by
  refine Run.iff_of_invariant PageInv (start_page c t) (fun a step b h hnext => ?_)
    fun a step b h hnext => ?_
  · exact taken_page c float h hnext.2
  · exact heeded_iff c float h hnext.2

section Concrete

abbrev PageStep := LinkStep Rat String (Dbl Rat)

/-- Another page engages the E-stop, telemetry shows it, and another page releases it. -/
def outpaced : List PageStep :=
  [.connect, .opened "1", .receive 0, .call ⟨1, .set_estop true⟩, .snapshot (11 / 10),
    .receive 1100, .call ⟨2, .set_estop false⟩]

def view (s : Link Rat String) : Bool × Option Bool × List Bool × Bool :=
  (s.page.estop, s.page.estop_pending.map EstopPending.value, s.up, s.server.bridge.estop)

theorem outpaced_played :
    ((start web_controller_yaml 0).play web_controller_yaml float_of outpaced).any
      (fun s => view s = (true, none, [], false)) := by
  decide +kernel

/-- Space is pressed before the next telemetry, and nothing comes of it. -/
theorem press_dropped : ∃ s s' : Link Rat String,
    Run (next web_controller_yaml float_of) (start web_controller_yaml 0) outpaced s ∧
    next web_controller_yaml float_of s (.keydown .Space false 2010 : PageStep) s' ∧
    s.StopPress (.keydown .Space false 2010 : PageStep) ∧ ¬ s'.Kept := by
  obtain ⟨s, hs, hview⟩ := (Option.any_eq_true _ _).mp outpaced_played
  simp only [view, decide_eq_true_iff, Prod.mk.injEq] at hview
  obtain ⟨hestop, hpending, hup, hserver⟩ := hview
  refine ⟨s, _, run_play _ _ hs, ⟨rfl, rfl⟩, ⟨rfl, .inl rfl⟩, ?_⟩
  have hsame : s.keydown 2010 .Space false = s := by
    unfold Link.keydown
    rw [if_neg Bool.false_ne_true, if_pos (.inl rfl), if_neg (by rw [hestop]; decide)]
  rw [hsame]
  rintro (hmem | ⟨pending, hp, -⟩ | hengaged)
  · rw [hup] at hmem
    cases hmem
  · rw [hp] at hpending
    cases hpending
  · cases hserver.symm.trans hengaged

end Concrete

end Link

end IotRobot.Web
