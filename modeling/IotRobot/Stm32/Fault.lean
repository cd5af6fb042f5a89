import IotRobot.Lib.Traces
import IotRobot.Stm32.Bridge
import IotRobot.Web.Guard

/-!
# A reported sensor fault, end to end

The sensor board's bridge and the web controller together: every `Range` that a line makes
the bridge publish is delivered before the next event. Which side is faulty is a question
about the history of lines; the bridge answers it with NaN, and the web controller does not
drive forward on NaN or on silence.
-/

namespace IotRobot.Stm32

open Lib Web

set_option autoImplicit false

/-- Both programs, with the `Range` messages so far and when they were delivered. -/
structure System (K Client : Type) where
  board : Stm32Bridge := {}
  web : Web.Node K Client
  ranges : List (Side × Dbl K × K) := []

/-- A serial line, a reconnect, or a call of the web controller. -/
inductive Event (K Client V : Type) where
  | line (now : K) (text : Text)
  | reconnect
  | web (e : Web.Event K Client V)

/-- The `Range` messages among those published. -/
def ranges_of {K : Type} (messages : List (Published K)) : List (Side × Dbl K) :=
  messages.filterMap fun message =>
    match message with
    | .range side range => some (side, range)
    | .battery _ => none

section History
variable {K Client V : Type}

/-- The event reports a fault of the side. -/
def Warns (side : Side) : Event K Client V → Prop
  | .line _ text => IsWarning side text
  | _ => False

/-- The event ends a fault of the side. -/
def Clears (side : Side) : Event K Client V → Prop
  | .line _ text => ClearsFault side text
  | .reconnect => True
  | .web _ => False

/-- The latest event that matters to the side is a warning. -/
def Faulted (side : Side) (es : List (Event K Client V)) : Prop :=
  ∃ before e after, es = before ++ e :: after ∧ Warns side e ∧
    ∀ x ∈ after, ¬ Warns side x ∧ ¬ Clears side x

theorem faulted_nil (side : Side) : ¬ Faulted side ([] : List (Event K Client V)) := by
  rintro ⟨before, e, after, h, _⟩
  exact absurd h.symm (List.append_ne_nil_of_right_ne_nil _ (List.cons_ne_nil _ _))

theorem Faulted.of_warns {side : Side} {es : List (Event K Client V)} {e : Event K Client V}
    (h : Warns side e) : Faulted side (es ++ [e]) :=
  ⟨es, e, [], rfl, h, fun _ hx => absurd hx List.not_mem_nil⟩

/-- Without a new warning a side is faulted if it was and the event does not end it. -/
theorem faulted_snoc {side : Side} {es : List (Event K Client V)} {e : Event K Client V}
    (h : ¬ Warns side e) : Faulted side (es ++ [e]) ↔ Faulted side es ∧ ¬ Clears side e := by
  constructor
  · rintro ⟨before, d, after, hes, hd, hafter⟩
    rcases split_snoc hes with ⟨rest, hbefore, rfl⟩ | ⟨rfl, -, -⟩
    · refine ⟨⟨before, d, rest, hbefore, hd, fun y hy => hafter y (List.mem_append_left _ hy)⟩, ?_⟩
      exact (hafter e (List.mem_append_right _ (List.mem_singleton_self _))).2
    · exact absurd hd h
  · rintro ⟨⟨before, d, after, rfl, hd, hafter⟩, hclears⟩
    refine ⟨before, d, after ++ [e], by simp, hd, fun x hx => ?_⟩
    rcases List.mem_append.mp hx with hx | hx
    · exact hafter x hx
    · rw [List.mem_singleton.mp hx]
      exact ⟨h, hclears⟩

theorem not_faulted_of_clears {side : Side} {es : List (Event K Client V)}
    {e : Event K Client V} (hw : ¬ Warns side e) (hc : Clears side e) :
    ¬ Faulted side (es ++ [e]) := by
  rw [faulted_snoc hw]
  exact fun h => h.2 hc

/-- The latest `Range` of a side, with its time. -/
def latest (side : Side) (ranges : List (Side × Dbl K × K)) : Option (Dbl K × K) :=
  ((ranges.filter fun r => r.1 = side).getLast?).map Prod.snd

end History

section Steps
variable {K Client V : Type} [Field K] [LinearOrder K] [FloorRing K] [DecidableEq Client]
variable (c : Parameters K) (client_float : V → FloatResult K)
variable (p : RangeLimits K) (float : Text → Option (Dbl K))

/-- The web controller receives the messages in order. -/
def deliver (now : K) (ranges : List (Side × Dbl K)) (s : RobotBridge K Client) :
    RobotBridge K Client :=
  ranges.foldl (fun s r => s.on_range now r.1 r.2) s

def next (s : System K Client) : Event K Client V → System K Client → Prop
  | .line now text, s' => s.web.clock ≤ now ∧
    s'.board = (s.board.handle_line p float text).2 ∧
    let ranges := ranges_of (s.board.handle_line p float text).1
    s'.web = ⟨now, deliver now ranges s.web.bridge⟩ ∧
    s'.ranges = s.ranges ++ ranges.map fun r => (r.1, r.2, now)
  | .reconnect, s' => s' = { s with board := s.board.connect }
  | .web e, s' => (∀ side range, e.op ≠ .on_range side range) ∧
    Web.next c client_float s.web e s'.web ∧ s'.board = s.board ∧ s'.ranges = s.ranges

def start (t : K) : System K Client where
  web := Web.start c t

/-- What a `Range` of a sound side says about the distance. -/
def Measures (cm : Option K) (value : Dbl K) : Prop :=
  match cm with
  | none => value = .pinf
  | some cm =>
    if p.max_range < cm / 100.0 then value = .pinf
    else ∃ x, value = .fin x ∧ p.min_range ≤ x ∧ x ≤ p.max_range

/-- The latest `Range` of a side is NaN or too old, or there is none. -/
def NoData (now : K) (latest : Option (Dbl K × K)) : Prop :=
  match latest with
  | none => True
  | some (value, time) => value = .nan ∨ c.sensor_timeout ≤ now - time

omit [FloorRing K] in
theorem ranges_of_reading (reading : Reading K) (s : Stm32Bridge) :
    ranges_of (s.publish_reading p reading) = SIDES.map fun side =>
      (side, distance_to_range (reading.cm side) p.min_range p.max_range (s.faulty side)) := by
  unfold ranges_of Stm32Bridge.publish_reading
  rw [List.filterMap_append, List.filterMap_map]
  cases reading.volts with
  | none => rfl
  | some volts => rfl

omit [FloorRing K] in
/-- A `Range` comes from a measurement line and from the fault state before it. -/
theorem range_of_line {line : Text} {s : Stm32Bridge} {side : Side} {value : Dbl K}
    (h : (side, value) ∈ ranges_of (s.handle_line p float line).1) :
    ∃ reading, parse_line float line = some reading ∧
      value = distance_to_range (reading.cm side) p.min_range p.max_range (s.faulty side) := by
  unfold Stm32Bridge.handle_line at h
  cases hparse : parse_line float line with
  | none =>
    rw [hparse] at h
    cases h
  | some reading =>
    rw [hparse] at h
    dsimp only at h
    rw [ranges_of_reading] at h
    obtain ⟨other, _, hother⟩ := List.mem_map.mp h
    obtain ⟨rfl, rfl⟩ := Prod.mk.inj hother
    exact ⟨reading, rfl, rfl⟩

omit [FloorRing K] in
theorem range_nan_iff (cm : Option K) (faulty : Bool) :
    distance_to_range cm p.min_range p.max_range faulty = .nan ↔ faulty = true := by
  unfold distance_to_range
  cases faulty with
  | true => simp
  | false =>
    cases cm with
    | none => simp
    | some cm =>
      simp only [Bool.false_eq_true, ↓reduceIte, iff_false]
      split <;> exact fun h => (by cases h)

omit [FloorRing K] in
theorem range_measures (hlimits : p.min_range ≤ p.max_range) (cm : Option K) :
    Measures p cm (distance_to_range cm p.min_range p.max_range false) := by
  unfold Measures distance_to_range
  cases cm with
  | none => simp
  | some cm =>
    simp only [Bool.false_eq_true, ↓reduceIte]
    by_cases hfar : p.max_range < cm / 100.0
    · rw [if_pos hfar, if_pos hfar]
    · rw [if_neg hfar, if_neg hfar]
      exact ⟨_, rfl, le_max_right _ _, max_le (not_lt.mp hfar) hlimits⟩

/-- What the web controller keeps of the latest `Range` of a side. -/
def stored (latest : Option (Dbl K × K)) : Option (Dbl K) × Dbl K :=
  match latest with
  | none => (none, .ninf)
  | some (.ninf, time) => (some (.fin 0), .fin time)
  | some (value, time) => (some value, .fin time)

/-- The bridge knows which sides are faulted, and the web controller has the latest `Range`
of each side. -/
structure FaultInv (es : List (Event K Client V)) (s : System K Client) : Prop where
  faulty : ∀ side, s.board.faulty side = true ↔ Faulted side es
  ranges : ∀ side, s.web.bridge.ranges side = stored (latest side s.ranges)

omit [Field K] [LinearOrder K] [FloorRing K] in
theorem latest_concat (side other : Side) (value : Dbl K) (now : K)
    (ranges : List (Side × Dbl K × K)) :
    latest side (ranges ++ [(other, value, now)]) =
      if other = side then some (value, now) else latest side ranges := by
  unfold latest
  rw [List.filter_append]
  by_cases h : other = side
  · simp [h]
  · simp [h]

omit [LinearOrder K] [FloorRing K] [DecidableEq Client] in
theorem on_range_stored (now : K) (other side : Side) (value : Dbl K)
    {s : RobotBridge K Client} {ranges : List (Side × Dbl K × K)}
    (h : ∀ side, s.ranges side = stored (latest side ranges)) :
    (s.on_range now other value).ranges side =
      stored (latest side (ranges ++ [(other, value, now)])) := by
  rw [latest_concat]
  unfold RobotBridge.on_range
  by_cases hside : other = side
  · subst hside
    rw [if_pos rfl]
    cases value <;> simp [stored]
  · rw [if_neg hside]
    dsimp only
    rw [if_neg (fun he => hside he.symm)]
    exact h side

omit [LinearOrder K] [FloorRing K] [DecidableEq Client] in
theorem deliver_stored (now : K) (messages : List (Side × Dbl K)) :
    ∀ (s : RobotBridge K Client) (ranges : List (Side × Dbl K × K)),
      (∀ side, s.ranges side = stored (latest side ranges)) →
      ∀ side, (deliver now messages s).ranges side =
        stored (latest side (ranges ++ messages.map fun r => (r.1, r.2, now))) := by
  induction messages with
  | nil =>
    intro s ranges h side
    rw [List.map_nil, List.append_nil]
    exact h side
  | cons r messages ih =>
    intro s ranges h side
    rw [List.map_cons, List.append_cons]
    exact ih _ _ (fun side => on_range_stored now r.1 side r.2 h) side

omit [LinearOrder K] [FloorRing K] [DecidableEq Client] in
theorem FaultInv.start (t : K) :
    FaultInv ([] : List (Event K Client V)) (start c t : System K Client) := by
  have hinit : (RobotBridge.init c t : RobotBridge K Client).ranges = fun _ => (none, .ninf) := by
    unfold RobotBridge.init
    cases c.start_estopped <;> rfl
  refine ⟨fun side => ⟨fun h => (by cases h), fun h => absurd h (faulted_nil side)⟩, fun side => ?_⟩
  change (RobotBridge.init c t : RobotBridge K Client).ranges side = _
  rw [hinit]
  rfl

theorem FaultInv.step {es : List (Event K Client V)} {s s' : System K Client}
    {e : Event K Client V} (h : FaultInv es s) (hn : next c client_float p float s e s') :
    FaultInv (es ++ [e]) s' := by
  cases e with
  | line now text =>
    obtain ⟨_, hboard, hweb, hranges⟩ := hn
    refine ⟨fun side => ?_, by rw [hweb, hranges]; exact deliver_stored now _ _ _ h.ranges⟩
    rw [hboard]
    obtain ⟨hwarns, hclears, hother⟩ := handle_line_faulty p float text side s.board
    have hkeep : ¬ IsWarning side text → (Faulted side (es ++ [Event.line now text]) ↔
        Faulted side es ∧ ¬ ClearsFault side text) := fun hw => faulted_snoc hw
    by_cases hw : IsWarning side text
    · exact ⟨fun _ => Faulted.of_warns hw, fun _ => hwarns hw⟩
    · by_cases hcl : ClearsFault side text
      · refine ⟨fun htrue => ?_, fun hf => absurd hf (not_faulted_of_clears hw hcl)⟩
        rw [hclears hcl] at htrue
        cases htrue
      · rw [hkeep hw, ← h.faulty side, hother hw hcl]
        exact ⟨fun htrue => ⟨htrue, hcl⟩, fun htrue => htrue.1⟩
  | reconnect =>
    change s' = _ at hn
    subst hn
    have hfaulted : ∀ side, ¬ Faulted side (es ++ [.reconnect]) :=
      fun side => not_faulted_of_clears id trivial
    exact ⟨fun side => ⟨fun htrue => (by cases htrue), fun hf => absurd hf (hfaulted side)⟩,
      h.ranges⟩
  | web e =>
    obtain ⟨hop, ⟨_, hweb⟩, hboard, hranges⟩ := hn
    refine ⟨fun side => ?_, fun side => ?_⟩
    · rw [hboard, h.faulty side, faulted_snoc id]
      exact ⟨fun hf => ⟨hf, id⟩, fun hf => hf.1⟩
    · rw [hranges, hweb, ← h.ranges side]
      exact congrFun (perform_ranges c client_float e s.web.bridge hop) side

omit [FloorRing K] [DecidableEq Client] in
/-- A side without data is missing at the tick. -/
theorem missing_of_no_data {es : List (Event K Client V)} {s : System K Client}
    (h : FaultInv es s) {side : Side} {now : K} (hdata : NoData c now (latest side s.ranges)) :
    Missing (s.web.bridge.fresh_ranges c now) := by
  refine ⟨side, ?_⟩
  unfold RobotBridge.fresh_ranges
  rw [h.ranges side]
  unfold NoData at hdata
  cases hlatest : latest side s.ranges with
  | none => rfl
  | some r =>
    obtain ⟨value, time⟩ := r
    rw [hlatest] at hdata
    rcases hdata with rfl | hold
    · by_cases hfresh : now - time < c.sensor_timeout <;> simp [stored, hfresh, is_missing]
    · have hstale : ¬ now - time < c.sensor_timeout := not_lt.mpr hold
      cases value <;> simp [stored, hstale, is_missing]

variable [IsStrictOrderedRing K]

/-- In every run: a published `Range` is NaN exactly when the latest event that matters to
its side is a warning, and otherwise says what the sensor measured; and while some side's
latest `Range` is NaN or too old, no tick sends the robot forward. -/
theorem reported_fault_blocks (hrequire : c.require_ultrasonic = true)
    (hstop : 0 < c.stop_distance) (hlimits : p.min_range ≤ p.max_range) {t : K}
    {es : List (Event K Client V)} {s : System K Client}
    (hr : Run (next c client_float p float) (start c t) es s) :
    (∀ now text s', next c client_float p float s (.line now text) s' → ∀ side value,
      (side, value) ∈ ranges_of (s.board.handle_line p float text).1 →
        (value = .nan ↔ Faulted side es) ∧
        (¬ Faulted side es → ∃ reading, parse_line float text = some reading ∧
          Measures p (reading.cm side) value)) ∧
    (∀ e s', next c client_float p float s (.web e) s' → e.op = .on_drive_timer →
      (∃ side, NoData c e.now (latest side s.ranges)) →
      ∀ v w, .twist v w ∈ sent_in s.web.bridge s'.web.bridge → v ≤ 0) := by
  have hinv : FaultInv es s := by
    induction hr with
    | nil => exact FaultInv.start c t
    | snoc _ hn ih => exact ih.step c client_float p float hn
  constructor
  · intro now text s' _ side value hmem
    obtain ⟨reading, hparse, rfl⟩ := range_of_line p float hmem
    refine ⟨?_, fun hsound => ⟨reading, hparse, ?_⟩⟩
    · rw [range_nan_iff, hinv.faulty side]
    · have hfalse : s.board.faulty side = false :=
        Bool.eq_false_iff.mpr fun h => hsound ((hinv.faulty side).mp h)
      rw [hfalse]
      exact range_measures p hlimits _
  · rintro e s' ⟨_, hweb, _⟩ _ ⟨side, hdata⟩ v w hsent
    exact tick_without_data c client_float hrequire hstop hweb
      (missing_of_no_data c hinv hdata) hsent

end Steps

section Concrete

/-- `float` on the two numbers of the measurement below. -/
def float_of_text (text : Text) : Option (Dbl Rat) :=
  if text = "-1.0".toList then some (.fin (-1))
  else if text = "50.0".toList then some (.fin 50)
  else none

def hc_sr04 : RangeLimits Rat where
  min_range := 2 / 100
  max_range := 4

abbrev SensorEvent := Event Rat String (Dbl Rat)

/-- The system after an event. -/
def step (s : System Rat String) : SensorEvent → System Rat String
  | .line now text =>
    let r := s.board.handle_line hc_sr04 float_of_text text
    { board := r.2
      web := ⟨now, deliver now (ranges_of r.1) s.web.bridge⟩
      ranges := s.ranges ++ (ranges_of r.1).map fun x => (x.1, x.2, now) }
  | .reconnect => { s with board := s.board.connect }
  | .web e => { s with web := ⟨e.now, perform web_controller_yaml float_of e s.web.bridge⟩ }

def warned : SensorEvent := .line 0 "# warning: left no echo".toList
def measurement : Text := "D1:-1.0,D2:50.0".toList
def measured : SensorEvent := .line (1 / 10) measurement
def driven : SensorEvent := .web ⟨1 / 5, .drive "phone" (.fin 1) (.fin 0) (.fin 1)⟩

def initial : System Rat String := start web_controller_yaml 0

abbrev Next (s : System Rat String) (e : SensorEvent) (s' : System Rat String) : Prop :=
  next web_controller_yaml float_of hc_sr04 float_of_text s e s'

theorem web_next {s : System Rat String} {e : Web.Event Rat String (Dbl Rat)}
    (hop : ∀ side value, e.op ≠ .on_range side value) (hclock : s.web.clock ≤ e.now) :
    Next s (.web e) (step s (.web e)) :=
  ⟨hop, ⟨hclock, rfl⟩, rfl, rfl⟩

theorem warned_next : Next initial warned (step initial warned) :=
  ⟨by decide +kernel, rfl, rfl, rfl⟩

theorem measured_next :
    Next (step initial warned) measured (step (step initial warned) measured) :=
  ⟨by decide +kernel, rfl, rfl, rfl⟩

/-- The left side publishes NaN, and the tick after the drive does not move the robot
forward. -/
theorem reported_fault_blocks_left :
    (∀ value, (.left, value) ∈ ranges_of
      ((step initial warned).board.handle_line hc_sr04 float_of_text measurement).1 →
        value = .nan) ∧
    (∀ v w, .twist v w ∈ sent_in
      (step (step (step initial warned) measured) driven).web.bridge
      (step (step (step (step initial warned) measured) driven) (.web tick)).web.bridge →
        v ≤ 0) := by
  have hwarned : Run Next initial ([] ++ [warned]) (step initial warned) :=
    .snoc .nil warned_next
  have hdriven : Run Next initial ([] ++ [warned] ++ [measured] ++ [driven])
      (step (step (step initial warned) measured) driven) :=
    (hwarned.snoc measured_next).snoc (web_next nofun (by decide +kernel))
  constructor
  · intro value hmem
    have hfault := (reported_fault_blocks web_controller_yaml float_of hc_sr04 float_of_text rfl
      (by decide +kernel) (by decide +kernel) hwarned).1 (1 / 10) measurement _ measured_next
      .left value hmem
    have hwarning : IsWarning .left "# warning: left no echo".toList :=
      (fault_iff _ _).mp ⟨"no echo".toList, by decide +kernel⟩
    exact hfault.1.mpr (Faulted.of_warns hwarning)
  · refine (reported_fault_blocks web_controller_yaml float_of hc_sr04 float_of_text rfl
      (by decide +kernel) (by decide +kernel) hdriven).2 tick _
      (web_next nofun (by decide +kernel)) rfl ⟨.left, ?_⟩
    have hlatest : latest .left
        (step (step (step initial warned) measured) driven).ranges = some (.nan, 1 / 10) := by
      decide +kernel
    rw [hlatest]
    exact .inl rfl

end Concrete

end IotRobot.Stm32
