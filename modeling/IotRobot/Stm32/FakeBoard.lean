import IotRobot.Stm32.Fault
import IotRobot.Stm32.Measurements

/-!
# A sensor that does not respond

The emulated board with `--fault` says of one sensor that it does not respond, as the firmware
does, and says so again every `FAULT_REPEAT_PINGS`. So a bridge that has heard this many lines
knows of the fault, whenever it connected, and the robot stays where it is or drives back.
-/

namespace IotRobot.Stm32

open Lib Web

set_option autoImplicit false

def BANNER : Text := "# iot-stm32 1.2.0 (fake)\r\n".toList
def FAULT_WARN_PINGS : Nat := 15
def FAULT_REPEAT_PINGS : Nat := 150

/-- True when the firmware prints its warning after this many failed pings in a row. -/
def fault_warning_due (failed_pings : Nat) : Bool :=
  FAULT_WARN_PINGS ≤ failed_pings ∧ (failed_pings - FAULT_WARN_PINGS) % FAULT_REPEAT_PINGS = 0

/-- Among `FAULT_REPEAT_PINGS` failed pings in a row there is one with a warning. -/
theorem fault_warning_within (failed_pings : Nat) :
    ∃ n, failed_pings < n ∧ n ≤ failed_pings + FAULT_REPEAT_PINGS ∧ fault_warning_due n = true := by
  unfold fault_warning_due FAULT_WARN_PINGS FAULT_REPEAT_PINGS
  by_cases hfew : failed_pings < 15
  · exact ⟨15, hfew, by omega, by decide⟩
  · refine ⟨15 + 150 * ((failed_pings - 15) / 150 + 1), by omega, by omega, ?_⟩
    rw [decide_eq_true_iff]
    omega

def fault_warning (side : Side) : Text :=
  "# warning: ".toList ++ side_name side ++ " sensor not responding\r\n".toList

theorem fault_warning_reports (side : Side) : IsWarning side (fault_warning side) := by
  refine (fault_iff _ side).mp ⟨"sensor not responding".toList, ?_⟩
  cases side with
  | left => decide +kernel
  | right => decide +kernel

/-- The arguments that say what the board sends. -/
structure FakeArgs where
  battery : Bool
  zero_no_echo : Bool
  fault : Option Side

section Board
variable {K : Type} [Field K] [LinearOrder K] [FloorRing K] (sin : K → K) (pi : K)

/-- Slowly varying distances in cm. -/
def fake_distances (t no_echo : K) : K × K :=
  let left := 60.0 + 40.0 * sin (2.0 * pi * t / 8.0)
  let right := 120.0 + 80.0 * sin (2.0 * pi * t / 5.0)
  let right := if t - 3.0 * ⌊t / 3.0⌋ < 0.5 then no_echo else right
  (left, right)

/-- The lines that `main` writes at once, with the failed pings after them. -/
def write_lines (args : FakeArgs) (t : K) (failed_pings : Nat) : Nat × List Text :=
  let no_echo : K := if args.zero_no_echo then 0 else -1
  let volts : Option K := if args.battery then some (max 21.0 (25.0 - 0.002 * t)) else none
  let (left, right) := fake_distances sin pi t no_echo
  match args.fault with
  | none => (failed_pings, [format_reading left right volts])
  | some side =>
    -- a failed ping is -1.0 whatever `no_echo` is
    let (left, right) := match side with
      | .left => (-1, right)
      | .right => (left, -1)
    let failed_pings := failed_pings + 1
    let line := if fault_warning_due failed_pings then [fault_warning side] else []
    (failed_pings, line ++ [format_reading left right volts])

/-- What the board writes of a faulty sensor: a measurement, after a warning if one is due. -/
theorem write_lines_fault {args : FakeArgs} {side : Side} (hfault : args.fault = some side) (t : K)
    (failed_pings : Nat) : ∃ (left right : K) (volts : Option K),
      write_lines sin pi args t failed_pings = (failed_pings + 1,
        (if fault_warning_due (failed_pings + 1) then [fault_warning side] else []) ++
          [format_reading left right volts]) := by
  unfold write_lines
  rw [hfault]
  cases side with
  | left => exact ⟨_, _, _, rfl⟩
  | right => exact ⟨_, _, _, rfl⟩

end Board

/-- The programs, with the failed pings in a row. -/
structure FakeStm32 (K Client : Type) where
  failed_pings : Nat := 0
  system : System K Client

/-- The board starts anew, or writes its lines, which the bridge hears at once unless they do not
fit into the buffer; the bridge reconnects; a call of the web controller. -/
inductive BoardEvent (K Client V : Type) where
  | restart (now : K)
  | write (now t : K) (written : Bool)
  | reconnect
  | web (e : Web.Event K Client V)

namespace FakeStm32

section Steps
variable {K Client V : Type} [Field K] [LinearOrder K] [FloorRing K] [DecidableEq Client]
variable (c : Parameters K) (client_float : V → FloatResult K)
variable (p : RangeLimits K) (float : Text → Option (Dbl K))
variable (sin : K → K) (pi : K) (args : FakeArgs)

/-- The failed pings after an event, and what the other two programs see of it. -/
def events (s : FakeStm32 K Client) : BoardEvent K Client V → Nat × List (Event K Client V)
  | .restart now => (0, [.line now BANNER])
  | .write now t written =>
    let (failed_pings, lines) := write_lines sin pi args t s.failed_pings
    (failed_pings, if written then lines.map (.line now) else [])
  | .reconnect => (s.failed_pings, [.reconnect])
  | .web e => (s.failed_pings, [.web e])

def next (s : FakeStm32 K Client) (e : BoardEvent K Client V) (s' : FakeStm32 K Client) : Prop :=
  s'.failed_pings = (s.events sin pi args e).1 ∧
    Run (Stm32.next c client_float p float) s.system (s.events sin pi args e).2 s'.system

def start (t : K) : FakeStm32 K Client where
  system := Stm32.start c t

end Steps

section Events
variable {K Client V : Type}

/-- The bridge has to learn of the fault anew. -/
def Resets : BoardEvent K Client V → Prop
  | .restart _ | .reconnect => True
  | _ => False

/-- The lines get lost. -/
def Loses : BoardEvent K Client V → Prop
  | .write _ _ written => written = false
  | _ => False

def writes : BoardEvent K Client V → Bool
  | .write _ _ _ => true
  | _ => false

/-- What the programs see of a board whose sensor at `side` is faulty. -/
def Speech [Field K] [LinearOrder K] [FloorRing K] (side : Side) : Event K Client V → Prop
  | .line _ text => text = fault_warning side ∨
      ∃ (left right : K) (volts : Option K), text = format_reading left right volts
  | .reconnect => False
  | .web _ => True

/-- The `Range` messages of a side since then are NaN. -/
def Muted (side : Side) (ranges ranges' : List (Side × Dbl K × K)) : Prop :=
  ∃ new, ranges' = ranges ++ new ∧ ∀ value time, (side, value, time) ∈ new → value = .nan

theorem Muted.refl (side : Side) (ranges : List (Side × Dbl K × K)) : Muted side ranges ranges :=
  ⟨[], (List.append_nil _).symm, by simp⟩

theorem Muted.trans {side : Side} {ranges ranges' ranges'' : List (Side × Dbl K × K)}
    (h : Muted side ranges ranges') (h' : Muted side ranges' ranges'') :
    Muted side ranges ranges'' := by
  obtain ⟨new, rfl, hnan⟩ := h
  obtain ⟨more, rfl, hmore⟩ := h'
  refine ⟨new ++ more, List.append_assoc _ _ _, fun value time hmem => ?_⟩
  rcases List.mem_append.mp hmem with hmem | hmem
  · exact hnan value time hmem
  · exact hmore value time hmem

/-- The bridge holds the side for faulty and has published so. -/
structure Reported (side : Side) (s : System K Client) : Prop where
  faulty : s.board.faulty side = true
  nan : ∃ time, latest side s.ranges = some (.nan, time)

theorem Muted.still_nan {side : Side} {ranges ranges' : List (Side × Dbl K × K)}
    (h : Muted side ranges ranges') (hlatest : ∃ time, latest side ranges = some (.nan, time)) :
    ∃ time, latest side ranges' = some (.nan, time) := by
  obtain ⟨new, rfl, hnan⟩ := h
  induction new using List.reverseRecOn with
  | nil => simpa using hlatest
  | append_singleton new r ih =>
    obtain ⟨other, value, time⟩ := r
    rw [← List.append_assoc, latest_concat]
    by_cases hside : other = side
    · subst hside
      rw [if_pos rfl, hnan value time (by simp)]
      exact ⟨time, rfl⟩
    · rw [if_neg hside]
      exact ih fun value time hmem => hnan value time (List.mem_append_left _ hmem)

end Events

section Lines
variable {K Client V : Type} [Field K] [LinearOrder K] [FloorRing K] [DecidableEq Client]
variable (c : Parameters K) (client_float : V → FloatResult K)
variable (p : RangeLimits K) {float : Text → Option (Dbl K)}
variable {s s' : System K Client} {side : Side}

/-- A line that is handled while the side is faulty brings nothing but NaN for it. -/
theorem line_muted {now : K} {text : Text} (hfaulty : s.board.faulty side = true)
    (hn : Stm32.next c client_float p float s (.line now text) s') :
    Muted side s.ranges s'.ranges := by
  obtain ⟨-, -, -, hranges⟩ := hn
  refine ⟨_, hranges, fun value time hmem => ?_⟩
  obtain ⟨r, hr, heq⟩ := List.mem_map.mp hmem
  obtain ⟨hside, heq⟩ := Prod.mk.inj heq
  obtain ⟨hvalue, -⟩ := Prod.mk.inj heq
  subst hside hvalue
  obtain ⟨reading, -, hvalue⟩ := range_of_line p float hr
  rw [hvalue, range_nan_iff]
  exact hfaulty

theorem warning_faulty {now : K}
    (hn : Stm32.next c client_float p float s (.line now (fault_warning side)) s') :
    s'.board.faulty side = true := by
  obtain ⟨-, hboard, -⟩ := hn
  rw [hboard]
  exact (handle_line_faulty p float _ side s.board).1 (fault_warning_reports side)

variable [IsStrictOrderedRing K]

/-- A measurement of a faulty side reports it. -/
theorem reading_reports (hfloat : ReadsDecimals float) {now left right : K} {volts : Option K}
    (hfaulty : s.board.faulty side = true)
    (hn : Stm32.next c client_float p float s (.line now (format_reading left right volts)) s') :
    Reported side s' := by
  obtain ⟨-, hboard, -, hranges⟩ := hn
  have hparse := parse_format_reading float hfloat left right volts
  unfold Stm32Bridge.handle_line at hboard hranges
  rw [hparse] at hboard hranges
  dsimp only at hboard hranges
  refine ⟨by rw [hboard]; exact hfaulty, now, ?_⟩
  have hvalue := (range_nan_iff p ((⟨rounded_cm left, rounded_cm right,
    volts.map (round_digits 2)⟩ : Reading K).cm side) (s.board.faulty side)).mpr hfaulty
  rw [hranges, ranges_of_reading]
  simp only [SIDES, List.map_cons, List.map_nil]
  rw [List.append_cons, latest_concat, latest_concat]
  cases side with
  | left => simp [hvalue]
  | right => simp [hvalue]

/-- While the board speaks of nothing but its fault, the fault stays reported. -/
theorem Reported.step (hfloat : ReadsDecimals float) {e : Event K Client V} (h : Reported side s)
    (hspeech : Speech side e) (hn : Stm32.next c client_float p float s e s') :
    Reported side s' ∧ Muted side s.ranges s'.ranges := by
  cases e with
  | line now text =>
    have hmuted := line_muted c client_float p h.faulty hn
    refine ⟨?_, hmuted⟩
    rcases hspeech with rfl | ⟨left, right, volts, rfl⟩
    · exact ⟨warning_faulty c client_float p hn, hmuted.still_nan h.nan⟩
    · exact reading_reports c client_float p hfloat h.faulty hn
  | reconnect => exact hspeech.elim
  | web e =>
    obtain ⟨-, -, hboard, hranges⟩ := hn
    rw [hranges]
    exact ⟨⟨by rw [hboard]; exact h.faulty, by rw [hranges]; exact h.nan⟩, .refl _ _⟩

theorem Reported.run (hfloat : ReadsDecimals float) {es : List (Event K Client V)}
    (h : Reported side s) (hspeech : ∀ e ∈ es, Speech side e)
    (hr : Run (Stm32.next c client_float p float) s es s') :
    Reported side s' ∧ Muted side s.ranges s'.ranges := by
  induction hr with
  | nil => exact ⟨h, .refl _ _⟩
  | snoc _ hn ih =>
    obtain ⟨hreported, hmuted⟩ := ih fun e he => hspeech e (List.mem_append_left _ he)
    obtain ⟨hreported', hmuted'⟩ := hreported.step c client_float p hfloat
      (hspeech _ (List.mem_append_right _ List.mem_cons_self)) hn
    exact ⟨hreported', hmuted.trans hmuted'⟩

/-- A due warning is followed by a measurement. -/
theorem warned_reading (hfloat : ReadsDecimals float) {now left right : K} {volts : Option K}
    (hr : Run (Stm32.next (V := V) c client_float p float) s
      ([.line now (fault_warning side)] ++ [.line now (format_reading left right volts)]) s') :
    Reported side s' := by
  obtain ⟨between, hfirst, hreading⟩ := hr.of_snoc
  have hwarning := hfirst.of_single
  exact reading_reports c client_float p hfloat (warning_faulty c client_float p hwarning) hreading

end Lines

section Runs
variable {K Client V : Type} [Field K] [LinearOrder K] [FloorRing K] [DecidableEq Client]
  [IsStrictOrderedRing K]
variable {c : Parameters K} {client_float : V → FloatResult K}
variable {p : RangeLimits K} {float : Text → Option (Dbl K)}
variable {sin : K → K} {pi : K} {args : FakeArgs} {side : Side}
variable {s s' : FakeStm32 K Client}

omit [DecidableEq Client] [IsStrictOrderedRing K] in
/-- What the programs see of a step that resets nothing. -/
theorem events_speech (hfault : args.fault = some side) (s : FakeStm32 K Client)
    {e : BoardEvent K Client V} (hkeeps : ¬ Resets e) :
    ∀ event ∈ (s.events sin pi args e).2, Speech side event := by
  intro event hmem
  cases e with
  | restart now => exact absurd trivial hkeeps
  | reconnect => exact absurd trivial hkeeps
  | web e =>
    obtain rfl := List.mem_singleton.mp hmem
    trivial
  | write now t written =>
    obtain ⟨left, right, volts, hlines⟩ := write_lines_fault sin pi hfault t s.failed_pings
    cases written with
    | false => cases hmem
    | true =>
      simp only [events, hlines, if_true] at hmem
      obtain ⟨text, htext, rfl⟩ := List.mem_map.mp hmem
      rcases List.mem_append.mp htext with hwarning | hreading
      · split at hwarning
        · exact .inl (List.mem_singleton.mp hwarning)
        · cases hwarning
      · exact .inr ⟨left, right, volts, List.mem_singleton.mp hreading⟩

/-- A step that resets nothing keeps a reported fault reported. -/
theorem Reported.next (hfault : args.fault = some side) (hfloat : ReadsDecimals float)
    {e : BoardEvent K Client V} (h : Reported side s.system) (hkeeps : ¬ Resets e)
    (hn : next c client_float p float sin pi args s e s') :
    Reported side s'.system ∧ Muted side s.system.ranges s'.system.ranges :=
  h.run c client_float p hfloat (events_speech hfault s hkeeps) hn.2

/-- What is heard in full counts the failed pings, and reports the fault at the warning. -/
theorem heard_reports (hfault : args.fault = some side) (hfloat : ReadsDecimals float)
    {heard : List (BoardEvent K Client V)}
    (hr : Run (fun a e b => next c client_float p float sin pi args a e b ∧ ¬ Resets e ∧ ¬ Loses e)
      s heard s') :
    s'.failed_pings = s.failed_pings + heard.countP writes ∧
      ∀ n, s.failed_pings < n → n ≤ s'.failed_pings → fault_warning_due n = true →
        Reported side s'.system := by
  induction hr with
  | nil =>
    refine ⟨rfl, fun n hlow hhigh => ?_⟩
    omega
  | snoc _ hn ih =>
    rename_i heard between s' e _
    obtain ⟨hn, hkeeps, hloses⟩ := hn
    obtain ⟨hcount, hbefore⟩ := ih
    rw [List.countP_append, List.countP_singleton]
    cases e with
    | restart now => exact absurd trivial hkeeps
    | reconnect => exact absurd trivial hkeeps
    | web e =>
      have hsame : s'.failed_pings = between.failed_pings := hn.1
      refine ⟨hsame.trans hcount, fun n hlow hhigh hdue => ?_⟩
      exact ((hbefore n hlow (hsame ▸ hhigh) hdue).next hfault hfloat hkeeps hn).1
    | write now t written =>
      obtain rfl : written = true := by simpa [Loses] using hloses
      obtain ⟨left, right, volts, hlines⟩ := write_lines_fault sin pi hfault t between.failed_pings
      have hpings : s'.failed_pings = between.failed_pings + 1 := by
        rw [hn.1, events, hlines]
      refine ⟨by rw [hpings, hcount]; rfl, fun n hlow hhigh hdue => ?_⟩
      by_cases hlast : n = between.failed_pings + 1
      · -- this write brings the warning, and the measurement after it is published as NaN
        subst hlast
        have hrun := hn.2
        simp only [events, hlines, hdue, if_true] at hrun
        exact warned_reading c client_float p hfloat hrun
      · exact ((hbefore n hlow (by omega) hdue).next hfault hfloat hkeeps hn).1

omit [IsStrictOrderedRing K] in
/-- The bridge and the web controller keep what they know of the faults. -/
theorem run_fault_inv {t : K} {es : List (BoardEvent K Client V)}
    (hr : Run (next c client_float p float sin pi args) (start c t) es s) :
    ∃ events : List (Event K Client V), FaultInv events s.system := by
  refine hr.invariant (fun s => ∃ events : List (Event K Client V), FaultInv events s.system)
    ⟨[], FaultInv.start c t⟩ fun a b e hinv hn => ?_
  refine hn.2.invariant (fun system => ∃ events : List (Event K Client V), FaultInv events system)
    hinv ?_
  intro system system' event hinv hn
  obtain ⟨events, hinv⟩ := hinv
  exact ⟨_, hinv.step c client_float p float hn⟩

/-- A sensor that does not respond stops the robot. Whatever happened before, once the bridge has
heard `FAULT_REPEAT_PINGS` writes of the board without a gap, and until it reconnects or the board
starts anew, every `Range` of the faulty side is NaN, and no tick sends the robot forward. -/
theorem faulty_sensor_stops (hrequire : c.require_ultrasonic = true) (hstop : 0 < c.stop_distance)
    (hfloat : ReadsDecimals float) (hfault : args.fault = some side) {t : K}
    {es heard more : List (BoardEvent K Client V)} {before : FakeStm32 K Client}
    (hr : Run (next c client_float p float sin pi args) (start c t) es before)
    (hheard : Run
      (fun a e b => next c client_float p float sin pi args a e b ∧ ¬ Resets e ∧ ¬ Loses e)
      before heard s) (hlong : FAULT_REPEAT_PINGS ≤ heard.countP writes)
    (hmore : Run (fun a e b => next c client_float p float sin pi args a e b ∧ ¬ Resets e) s more s') :
    (∃ new, s'.system.ranges = s.system.ranges ++ new ∧
      ∀ value time, (side, value, time) ∈ new → value = .nan) ∧
    (∃ time, latest side s'.system.ranges = some (.nan, time)) ∧
    ∀ e after, next c client_float p float sin pi args s' (.web e) after → ∀ v w,
      .twist v w ∈ sent_in s'.system.web.bridge after.system.web.bridge → v ≤ 0 := by
  have hreported : Reported side s.system := by
    obtain ⟨hcount, hreports⟩ := heard_reports hfault hfloat hheard
    obtain ⟨n, hlow, hhigh, hdue⟩ := fault_warning_within before.failed_pings
    exact hreports n hlow (by omega) hdue
  have hstill : Reported side s'.system ∧ Muted side s.system.ranges s'.system.ranges := by
    refine hmore.invariant
      (fun b => Reported side b.system ∧ Muted side s.system.ranges b.system.ranges)
      ⟨hreported, .refl _ _⟩ ?_
    intro a b e hinv hn
    obtain ⟨hnext, hmuted⟩ := hinv.1.next hfault hfloat hn.2 hn.1
    exact ⟨hnext, hinv.2.trans hmuted⟩
  obtain ⟨⟨hfaulty, hlatest⟩, hmuted⟩ := hstill
  refine ⟨hmuted, hlatest, fun e after hn v w hsent => ?_⟩
  obtain ⟨time, hlatest⟩ := hlatest
  -- the web controller keeps the NaN, and does not drive forward on it
  have hall : Run (next c client_float p float sin pi args) (start c t) (es ++ heard ++ more) s' :=
    (hr.append (hheard.mono fun _ _ _ h => h.1)).append (hmore.mono fun _ _ _ h => h.1)
  obtain ⟨events, hinv⟩ := run_fault_inv hall
  have hdata : NoData c e.now (latest side s'.system.ranges) := by
    rw [hlatest]
    exact .inl rfl
  obtain ⟨-, hweb, -⟩ := hn.2.of_single
  exact tick_without_data c client_float hrequire hstop hweb (missing_of_no_data c hinv hdata) hsent

end Runs

section Concrete

def unplugged : FakeArgs := ⟨true, false, some .left⟩

abbrev Heard (s : FakeStm32 ℚ String) (e : BoardEvent ℚ String (Dbl ℚ)) (s' : FakeStm32 ℚ String) :
    Prop :=
  next web_controller_yaml float_of hc_sr04 read_decimal (fun _ => 0) 3.14 unplugged s e s' ∧
    ¬ Resets e ∧ ¬ Loses e

/-- Lines can be heard at any time from now on. -/
theorem lines_heard {now : ℚ} (texts : List Text) (s : System ℚ String) (hclock : s.web.clock ≤ now) :
    ∃ s', Run (Stm32.next (V := Dbl ℚ) web_controller_yaml float_of hc_sr04 read_decimal) s
      (texts.map (.line now)) s' ∧ s'.web.clock ≤ now := by
  induction texts generalizing s with
  | nil => exact ⟨s, .nil, hclock⟩
  | cons text texts ih =>
    obtain ⟨s', hrest, hclock'⟩ := ih
      { board := (s.board.handle_line hc_sr04 read_decimal text).2
        web := ⟨now,
          deliver now (ranges_of (s.board.handle_line hc_sr04 read_decimal text).1) s.web.bridge⟩
        ranges := s.ranges ++ (ranges_of (s.board.handle_line hc_sr04 read_decimal text).1).map
          fun r => (r.1, r.2, now) } (le_refl now)
    exact ⟨s', (Run.single ⟨hclock, rfl, rfl, rfl⟩).append hrest, hclock'⟩

theorem writes_heard (count : Nat) {now : ℚ} (s : FakeStm32 ℚ String)
    (hclock : s.system.web.clock ≤ now) :
    ∃ s', Run Heard s (List.replicate count (.write now 0 true)) s' ∧ s'.system.web.clock ≤ now := by
  induction count with
  | zero => exact ⟨s, .nil, hclock⟩
  | succ count ih =>
    obtain ⟨between, hr, hclock'⟩ := ih
    obtain ⟨system, hlines, hclock''⟩ := lines_heard
      (write_lines (K := ℚ) (fun _ => 0) 3.14 unplugged 0 between.failed_pings).2 between.system hclock'
    rw [List.replicate_succ']
    refine ⟨⟨_, system⟩, hr.snoc ⟨⟨rfl, ?_⟩, id, by simp [Loses]⟩, hclock''⟩
    exact hlines

/-- Ten seconds after the start the left side is NaN. -/
theorem faulty_sensor_stops_left : ∃ s,
    Run Heard (start web_controller_yaml 0) (List.replicate 150 (.write 10 0 true)) s ∧
      ∃ time, latest .left s.system.ranges = some (.nan, time) := by
  have hclock : (start web_controller_yaml 0 : FakeStm32 ℚ String).system.web.clock ≤ 10 := by
    decide +kernel
  obtain ⟨s, hheard, -⟩ := writes_heard 150 (start web_controller_yaml 0) hclock
  have hstops := faulty_sensor_stops (by decide +kernel) (by decide +kernel)
    reads_decimals_read_decimal rfl .nil hheard (by rw [List.countP_replicate]; decide) .nil
  exact ⟨s, hheard, hstops.2.1⟩

end Concrete

end FakeStm32

end IotRobot.Stm32
