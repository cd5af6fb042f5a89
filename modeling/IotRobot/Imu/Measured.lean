import IotRobot.Imu.Bias
import IotRobot.Imu.Readings

/-!
# What the node handles is what the chip measured

`Lsm9ds1Node` with the driver and the chip: the polls of the timer, which open the bus, configure
the chip and read it, and supply dropouts between them.
-/

namespace IotRobot.Imu

open Lib Prog

set_option autoImplicit false

variable {K : Type} [Field K] [LinearOrder K]

section Node
variable {c : Parameters K} {p : Poll K} {s : Lsm9ds1Node K}

/-- The messages on `imu/mag`. -/
def mag_fields {K : Type} (sent : List (Message K)) : List (Axes K) :=
  sent.filterMap fun message =>
    match message with
    | .mag field => some field
    | .imu _ _ => none

namespace Lsm9ds1Node

theorem handle_sample_logs (accel gyro : Axes K) (s : Lsm9ds1Node K) :
    (s.handle_sample accel gyro).samples = s.samples ++ [s.arrived accel gyro] ∧
    (s.handle_sample accel gyro).connection = s.connection ∧
    mag_fields (s.handle_sample accel gyro).sent = mag_fields s.sent := by
  unfold handle_sample
  dsimp only
  split
  · simp [publish_imu, mag_fields]
  · exact ⟨rfl, rfl, rfl⟩
  · split
    · exact ⟨rfl, rfl, rfl⟩
    · simp [publish_imu, mag_fields]

/-- A poll with a reading handles its sample and publishes its field. -/
theorem poll_reads {sample : Option (Axes K × Axes K)} {field : Option (Axes K)} (hopen : s.sensor = true)
    (hreading : p.reading = .ok (sample, field)) :
    (s.poll c p).samples = s.samples ++ (sample.map fun x => s.arrived x.1 x.2).toList ∧
    (s.poll c p).connection = s.connection ∧
    mag_fields (s.poll c p).sent = mag_fields s.sent ++ field.toList := by
  have hsample : (s.take_sample p sample).samples = s.samples ++ (sample.map fun x => s.arrived x.1 x.2).toList ∧
      (s.take_sample p sample).connection = s.connection ∧
      mag_fields (s.take_sample p sample).sent = mag_fields s.sent := by
    cases sample with
    | none => exact ⟨(List.append_nil _).symm, rfl, rfl⟩
    | some x => exact handle_sample_logs x.1 x.2 { s with last_ag := p.now }
  have hfield : ((s.take_sample p sample).take_field p field).samples = (s.take_sample p sample).samples ∧
      ((s.take_sample p sample).take_field p field).connection = (s.take_sample p sample).connection ∧
      mag_fields ((s.take_sample p sample).take_field p field).sent =
        mag_fields (s.take_sample p sample).sent ++ field.toList := by
    cases field with
    | none => exact ⟨rfl, rfl, (List.append_nil _).symm⟩
    | some field => simp [take_field, mag_fields]
  unfold poll
  rw [if_neg (by simp [hopen]), hreading]
  dsimp only
  have hall : ∀ s' : Lsm9ds1Node K, (s'.fail c p.failed).samples = s'.samples ∧
      (s'.fail c p.failed).connection = s'.connection ∧ (s'.fail c p.failed).sent = s'.sent :=
    fun _ => ⟨rfl, rfl, rfl⟩
  split
  · rw [(hall _).1, (hall _).2.1, (hall _).2.2, hfield.1, hfield.2.1, hfield.2.2]
    rw [hsample.2.2]
    exact ⟨hsample.1, hsample.2.1, rfl⟩
  · rw [hfield.1, hfield.2.1, hfield.2.2, hsample.2.2]
    exact ⟨hsample.1, hsample.2.1, rfl⟩

/-- A poll that meets an error closes the bus. -/
theorem poll_fails {error : BusError} (hopen : s.sensor = true) (hreading : p.reading = .error error) :
    s.poll c p = s.fail c p.failed := by
  unfold poll
  rw [if_neg (by simp [hopen]), hreading]

/-- A poll without a sensor does nothing, or fails to open one, or opens a new connection. -/
theorem poll_connects (hclosed : s.sensor = false) :
    ((s.poll c p).samples = s.samples ∧ mag_fields (s.poll c p).sent = mag_fields s.sent) ∧
    ((s.poll c p).sensor = false ∧ (s.poll c p).connection = s.connection ∨
      p.opening = .ok () ∧ (s.poll c p).connection = s.connection + 1) := by
  unfold poll
  rw [if_pos hclosed]
  split
  · unfold connect
    cases hopening : p.opening with
    | error error => exact ⟨⟨rfl, rfl⟩, .inl ⟨rfl, rfl⟩⟩
    | ok _ => exact ⟨⟨rfl, rfl⟩, .inr ⟨rfl, rfl⟩⟩
  · exact ⟨⟨rfl, rfl⟩, .inl ⟨hclosed, rfl⟩⟩

end Lsm9ds1Node

end Node

/-- The node, the sensor, and what the sensors offered to it at its polls. No function reads
`measured` and `fields`. -/
structure ImuSystem (K : Type) where
  node : Lsm9ds1Node K
  sensor : Sensor
  measured : List (Sample K) := []
  fields : List (Axes K) := []

/-- A poll of the timer with its clock readings and the error of the `bus_factory`, or a dropout of
the supply. -/
inductive ImuEvent (K : Type) where
  | poll (attempt opened now failed : K) (factory : Option String)
  | dropout

/-- What the node sees of a run of the driver; a run that goes on is none. -/
def outcome {α : Type} : Outcome Fault α → Option (Except BusError α)
  | .returned a => some (.ok a)
  | .raised (.os_error _) => some (.error .OSError)
  | .raised (.lsm9ds1_error _) => some (.error .Lsm9ds1Error)
  | .running => none

namespace ImuSystem

section Model
variable (w : Wire) (c : Parameters K) (degree : K) (st : Settings) (rounds : Nat)

def poll (attempt opened now failed : K) (factory : Option String) (s : ImuSystem K) : Option (ImuSystem K) :=
  let p : Poll K := ⟨attempt, opened, now, failed, .error .OSError, .error .OSError⟩
  if s.node.sensor = false then
    if s.node.next_attempt ≤ attempt then
      match factory with
      | some _ => some { s with node := s.node.poll c p }
      | none =>
        let (result, sensor) := begin_ w K st rounds { s.sensor with discard := 0 }
        (outcome result).map fun opening =>
          { s with node := s.node.poll c { p with opening := opening }, sensor := sensor }
    else some { s with node := s.node.poll c p }
  else
    let (result, sensor) := read_all w degree st s.sensor
    (outcome result).map fun reading =>
      let s' := { s with node := s.node.poll c { p with reading := reading }, sensor := sensor }
      match reading with
      | .error _ => s'
      | .ok _ =>
        let sample := s.sensor.sample w degree
        { s' with
          measured := s.measured ++ (sample.map fun x => s.node.arrived x.1 x.2).toList
          fields := s.fields ++ ((s.sensor.after (if sample.isSome then 2 else 1)).field w).toList }

omit [Field K] [LinearOrder K] in
/-- Both devices lose their registers. -/
def dropout (s : ImuSystem K) : ImuSystem K :=
  { s with sensor := (s.sensor.reset .ag).reset .mag }

def taken (s : ImuSystem K) : ImuEvent K → Option (ImuSystem K)
  | .poll attempt opened now failed factory => s.poll w c degree st rounds attempt opened now failed factory
  | .dropout => some s.dropout

def next (s : ImuSystem K) (e : ImuEvent K) (s' : ImuSystem K) : Prop := s.taken w c degree st rounds e = some s'

/-- The node when `__init__` returns, and a chip in any state. -/
def start (sensor : Sensor) : ImuSystem K where
  node := Lsm9ds1Node.init c
  sensor := sensor

end Model

section Invariant
variable {w : Wire} {c : Parameters K} {degree : K} {st : Settings} {rounds : Nat} {s s' : ImuSystem K}

/-- The samples of one connection. -/
def of_connection (k : Nat) (samples : List (Sample K)) : List (Sample K) :=
  samples.filter fun x => x.connection = k

omit [Field K] [LinearOrder K] in
theorem of_connection_append (k : Nat) (before after : List (Sample K)) :
    of_connection k (before ++ after) = of_connection k before ++ of_connection k after :=
  List.filter_append ..

/-- The node handles what the sensors offer over a connection, but for the first samples, which the
driver drops. -/
structure Measures (st : Settings) (s : ImuSystem K) : Prop where
  ready : s.node.sensor = true → Configured K st s.sensor ∨ Off s.sensor
  discard : s.node.sensor = true →
    s.sensor.discard = TURN_ON_SAMPLES st.odr - (of_connection s.node.connection s.measured).length
  samples : ∀ k, of_connection k s.node.samples = (of_connection k s.measured).drop (TURN_ON_SAMPLES st.odr)
  numbers : ∀ sample ∈ s.measured, sample.connection ≤ s.node.connection
  fields : mag_fields s.node.sent = s.fields

omit [LinearOrder K] in
theorem start_measures (sensor : Sensor) : (start c sensor).Measures st := by
  have hinit : (Lsm9ds1Node.init c).sensor = false ∧ (Lsm9ds1Node.init c).samples = [] ∧
      (Lsm9ds1Node.init c).sent = [] := by
    unfold Lsm9ds1Node.init
    split <;> exact ⟨rfl, rfl, rfl⟩
  have hclosed : (start c sensor).node.sensor ≠ true := by
    change (Lsm9ds1Node.init c).sensor ≠ true
    rw [hinit.1]
    decide
  refine ⟨fun h => absurd h hclosed, fun h => absurd h hclosed, fun k => ?_, fun _ hmem => ?_, ?_⟩
  · change of_connection k (Lsm9ds1Node.init c).samples = List.drop _ []
    rw [hinit.2.1, List.drop_nil]
    rfl
  · cases hmem
  · change mag_fields (Lsm9ds1Node.init c).sent = []
    rw [hinit.2.2]
    rfl

omit [Field K] [LinearOrder K] in
/-- A device that lost its supply measures nothing. -/
theorem dropout_off (s : ImuSystem K) : Off s.dropout.sensor := by
  have hag := (reset_fresh .ag s.sensor).same (reset_other (show Chip.ag ≠ .mag by decide) (s.sensor.reset .ag))
  have hmag := reset_fresh .mag (s.sensor.reset .ag)
  have hrate : s.dropout.sensor.regs .ag CTRL_REG1_G = 0 := hag.2 CTRL_REG1_G (by decide)
  have hmode : s.dropout.sensor.regs .mag CTRL_REG3_M = 3 := hmag.2 CTRL_REG3_M (by decide)
  constructor
  · unfold Sensor.powered
    dsimp only
    rw [hrate]
    rfl
  · unfold Sensor.powered
    dsimp only
    rw [hmode]
    rfl

omit [LinearOrder K] in
theorem dropout_measures (h : s.Measures st) : s.dropout.Measures st :=
  ⟨fun _ => .inr (dropout_off s), h.discard, h.samples, h.numbers, h.fields⟩

omit [LinearOrder K] in
/-- A node that closed its bus, or has not opened it. -/
theorem Measures.closed (h : s.Measures st) {node : Lsm9ds1Node K} (sensor : Sensor) (hclosed : node.sensor = false)
    (hsamples : node.samples = s.node.samples) (hconnection : node.connection = s.node.connection)
    (hsent : mag_fields node.sent = mag_fields s.node.sent) :
    ({ s with node := node, sensor := sensor } : ImuSystem K).Measures st := by
  refine ⟨fun hopen => ?_, fun hopen => ?_, fun k => ?_, fun x hx => ?_, hsent.trans h.fields⟩
  · exact absurd (hclosed.symm.trans hopen) (by decide)
  · exact absurd (hclosed.symm.trans hopen) (by decide)
  · change of_connection k node.samples = _
    rw [hsamples]
    exact h.samples k
  · change _ ≤ node.connection
    rw [hconnection]
    exact h.numbers x hx

omit [LinearOrder K] in
/-- A connection over which nothing has been offered yet. -/
theorem Measures.connected (h : s.Measures st) {node : Lsm9ds1Node K} {sensor : Sensor}
    (hconfigured : Configured K st sensor) (hdiscard : sensor.discard = TURN_ON_SAMPLES st.odr)
    (hsamples : node.samples = s.node.samples) (hconnection : node.connection = s.node.connection + 1)
    (hsent : mag_fields node.sent = mag_fields s.node.sent) :
    ({ s with node := node, sensor := sensor } : ImuSystem K).Measures st := by
  have hnew : of_connection (s.node.connection + 1) s.measured = [] := by
    apply List.filter_eq_nil_iff.mpr
    intro x hx
    have hnumber := h.numbers x hx
    simp only [decide_eq_true_eq]
    omega
  refine ⟨fun _ => .inl hconfigured, fun _ => ?_, fun k => ?_, fun x hx => ?_, hsent.trans h.fields⟩
  · change sensor.discard = _ - (of_connection node.connection s.measured).length
    rw [hconnection, hnew, hdiscard]
    rfl
  · change of_connection k node.samples = _
    rw [hsamples]
    exact h.samples k
  · change _ ≤ node.connection
    rw [hconnection]
    exact (h.numbers x hx).trans (Nat.le_succ _)

omit [LinearOrder K] in
/-- A poll that read what the sensors offered. -/
theorem Measures.read (h : s.Measures st) {node : Lsm9ds1Node K} {sensor : Sensor}
    {offered sample : Option (Axes K × Axes K)} {field : Option (Axes K)} (hopen : s.node.sensor = true)
    (hready : Configured K st sensor ∨ Off sensor)
    (hsample : sample = if 0 < s.sensor.discard then none else offered)
    (hdiscard : sensor.discard = s.sensor.discard - offered.toList.length)
    (hsamples : node.samples = s.node.samples ++ (sample.map fun x => s.node.arrived x.1 x.2).toList)
    (hconnection : node.connection = s.node.connection)
    (hsent : mag_fields node.sent = mag_fields s.node.sent ++ field.toList) :
    ({ s with
      node := node
      sensor := sensor
      measured := s.measured ++ (offered.map fun x => s.node.arrived x.1 x.2).toList
      fields := s.fields ++ field.toList } : ImuSystem K).Measures st := by
  have hcount := h.discard hopen
  have hone : ∀ (k : Nat) (x : Option (Axes K × Axes K)),
      of_connection k (x.map fun x => s.node.arrived x.1 x.2).toList =
        if s.node.connection = k then (x.map fun x => s.node.arrived x.1 x.2).toList else [] := by
    intro k x
    cases x with
    | none => simp [of_connection]
    | some x => simp [of_connection, Lsm9ds1Node.arrived, List.filter_singleton]
  refine ⟨fun _ => hready, fun _ => ?_, fun k => ?_, fun x hx => ?_, ?_⟩
  · change sensor.discard = _ - (of_connection node.connection (s.measured ++ _)).length
    rw [hconnection, of_connection_append, hone, if_pos rfl, hdiscard, hcount, List.length_append]
    cases offered with
    | none => simp
    | some x => simp [Nat.sub_sub]
  · change of_connection k node.samples = (of_connection k (s.measured ++ _)).drop _
    rw [hsamples, of_connection_append, of_connection_append, hone, hone, h.samples k]
    by_cases hk : s.node.connection = k
    · subst hk
      rw [if_pos rfl, if_pos rfl, hsample]
      by_cases hdrop : 0 < s.sensor.discard
      · -- the sample is one of the first, which are dropped
        rw [if_pos hdrop, List.drop_eq_nil_of_le (by omega)]
        symm
        apply List.drop_eq_nil_of_le
        rw [List.length_append]
        cases offered with
        | none => simp only [Option.map_none, Option.toList_none, List.length_nil]; omega
        | some x => simp only [Option.map_some, Option.toList_some, List.length_singleton]; omega
      · rw [if_neg hdrop, List.drop_append_of_le_length (by omega)]
    · rw [if_neg hk, if_neg hk, List.append_nil, List.append_nil]
  · change x.connection ≤ node.connection
    rw [hconnection]
    rcases List.mem_append.mp hx with hold | hnew
    · exact h.numbers x hold
    · cases offered with
      | none => cases hnew
      | some y =>
        rw [List.mem_singleton.mp hnew]
        exact le_rfl
  · change mag_fields node.sent = _
    rw [hsent, h.fields]

omit [Field K] [LinearOrder K] in
theorem outcome_ok {α : Type} {result : Outcome Fault α} {a : α} (h : outcome result = some (.ok a)) :
    result = .returned a := by
  unfold outcome at h
  split at h
  · rw [Except.ok.inj (Option.some.inj h)]
  · cases h
  · cases h
  · cases h

variable [IsStrictOrderedRing K]

theorem next_measures {e : ImuEvent K} (h : s.Measures st) (hn : next w c degree st rounds s e s') :
    s'.Measures st := by
  cases e with
  | dropout =>
    obtain rfl := Option.some.inj hn
    exact dropout_measures h
  | poll attempt opened now failed factory =>
    unfold next taken poll at hn
    dsimp only at hn
    by_cases hclosed : s.node.sensor = false
    · rw [if_pos hclosed] at hn
      by_cases hattempt : s.node.next_attempt ≤ attempt
      · rw [if_pos hattempt] at hn
        cases factory with
        | some strerror =>
          obtain rfl := Option.some.inj hn
          obtain ⟨⟨hsamples, hsent⟩, ⟨hstill, hconnection⟩ | ⟨hopening, -⟩⟩ :=
            Lsm9ds1Node.poll_connects (c := c)
              (p := ⟨attempt, opened, now, failed, .error .OSError, .error .OSError⟩) hclosed
          · exact h.closed s.sensor hstill hsamples hconnection hsent
          · cases hopening
        | none =>
          obtain ⟨opening, hopening, rfl⟩ := Option.map_eq_some_iff.mp hn
          have hbegin := begin_rule (w := w) (K := K) rounds st { s.sensor with discard := 0 } trivial
          obtain ⟨⟨hsamples, hsent⟩, ⟨hstill, hconnection⟩ | ⟨hok, hconnection⟩⟩ :=
            Lsm9ds1Node.poll_connects (c := c) (p := ⟨attempt, opened, now, failed, opening, .error .OSError⟩) hclosed
          · exact h.closed _ hstill hsamples hconnection hsent
          · obtain rfl : opening = .ok () := hok
            rw [outcome_ok hopening] at hbegin
            exact h.connected hbegin.1 hbegin.2 hsamples hconnection hsent
      · rw [if_neg hattempt] at hn
        obtain rfl := Option.some.inj hn
        obtain ⟨⟨hsamples, hsent⟩, ⟨hstill, hconnection⟩ | ⟨hopening, -⟩⟩ :=
          Lsm9ds1Node.poll_connects (c := c)
            (p := ⟨attempt, opened, now, failed, .error .OSError, .error .OSError⟩) hclosed
        · exact h.closed s.sensor hstill hsamples hconnection hsent
        · cases hopening
    · have hopen : s.node.sensor = true := by simpa using hclosed
      rw [if_neg hclosed] at hn
      obtain ⟨reading, hreading, rfl⟩ := Option.map_eq_some_iff.mp hn
      obtain ⟨hregs, hresetting, -, hreturned⟩ := read_all_spec (w := w) degree (h.ready hopen)
      cases reading with
      | error error =>
        have hfails := Lsm9ds1Node.poll_fails (c := c)
          (p := ⟨attempt, opened, now, failed, .error .OSError, .error error⟩) hopen rfl
        dsimp only
        rw [hfails]
        exact h.closed _ rfl rfl rfl rfl
      | ok result =>
        obtain ⟨sample, field⟩ := result
        obtain ⟨rfl, rfl, hdiscard⟩ := hreturned sample field (outcome_ok hreading)
        obtain ⟨hsamples, hconnection, hsent⟩ := Lsm9ds1Node.poll_reads (c := c)
          (p := ⟨attempt, opened, now, failed, .error .OSError, .ok (_, _)⟩) hopen rfl
        refine h.read hopen ?_ rfl hdiscard hsamples hconnection hsent
        have hready := h.ready hopen
        unfold Configured Configs Has Off Sensor.powered at *
        rw [hregs, hresetting]
        exact hready

/-- A poll of the timer ends. -/
theorem next_goes_on (hrounds : 51 ≤ rounds) (h : s.Measures st) (e : ImuEvent K) :
    ∃ s', next w c degree st rounds s e s' := by
  have houtcome : ∀ {α : Type} {result : Outcome Fault α}, result ≠ .running → ∃ x, outcome result = some x := by
    intro α result hends
    cases result with
    | returned a => exact ⟨_, rfl⟩
    | raised fault => cases fault <;> exact ⟨_, rfl⟩
    | running => exact absurd rfl hends
  apply Option.isSome_iff_exists.mp
  cases e with
  | dropout => rfl
  | poll attempt opened now failed factory =>
    unfold taken poll
    dsimp only
    by_cases hclosed : s.node.sensor = false
    · rw [if_pos hclosed]
      split
      · cases factory with
        | some strerror => rfl
        | none =>
          have hbegin := begin_rule (w := w) (K := K) rounds st { s.sensor with discard := 0 } trivial
          have hends : (begin_ w K st rounds { s.sensor with discard := 0 }).1 ≠ .running := by
            intro hrunning
            rw [hrunning] at hbegin
            exact absurd hbegin (not_lt.mpr hrounds)
          obtain ⟨opening, hopening⟩ := houtcome hends
          dsimp only
          rw [hopening]
          rfl
      · rfl
    · rw [if_neg hclosed]
      have hready := h.ready (by simpa using hclosed)
      obtain ⟨reading, hreading⟩ := houtcome (read_all_spec (w := w) degree hready).2.2.1
      rw [hreading]
      rfl

/-- Whatever registers the chip starts with, whatever fails on the bus, and whenever the supply drops
out between two polls: the samples that the node handles over a connection are those that the sensors
offered over it, without the first ones after the power-up, at the ranges that the registers of the chip
selected at the time, in SI units and the axes of imu_link; and so are the fields that it publishes. Every
poll ends, with at most 51 looks at the reset bits. -/
theorem samples_are_measured {sensor : Sensor} {es : List (ImuEvent K)}
    (hr : Run (next w c degree st rounds) (start c sensor) es s) :
    (∀ k, of_connection k s.node.samples = (of_connection k s.measured).drop (TURN_ON_SAMPLES st.odr)) ∧
    mag_fields s.node.sent = s.fields ∧
    (51 ≤ rounds → ∀ e, ∃ s', next w c degree st rounds s e s') := by
  have h : s.Measures st := hr.invariant (fun s => s.Measures st) (start_measures sensor)
    fun _ _ _ h hn => next_measures h hn
  exact ⟨h.samples, h.fields, fun hrounds e => next_goes_on hrounds h e⟩

end Invariant

end ImuSystem

/-- Every operation succeeds, and every reset is done at once. -/
def calm : Wire where
  fails _ := none
  resets _ := true
  offers _ _ :=
    { accel := ![0, 0, 8197]
      gyro := ![10, 0, 0]
      mag := ![0, 100, 0]
      new_ag := true
      new_mag := true }

def imu_parameters : Parameters ℚ where
  gyro_bias_samples := 0
  gyro_bias_tolerance := 0.05
  reconnect_period := 1.0
  stale_timeout := 0.5

/-- A chip that some program has set to other ranges. -/
def found : Sensor where
  regs
    | .ag, 0x0F => 0x68
    | .mag, 0x0F => 0x3D
    | _, _ => 0xFF

/-- The sensor is opened, and polled every 10 ms. -/
def polled : List (ImuEvent ℚ) :=
  (List.range 5).map fun i => .poll (i / 100) (i / 100) (i / 100) (i / 100) none

abbrev played : Option (ImuSystem ℚ) :=
  polled.foldlM (fun s e => s.taken calm imu_parameters 1 {} 51 e) (ImuSystem.start imu_parameters found)

/-- Of the four samples that the chip offered the node handles the last one. -/
theorem samples_are_measured_still : ∃ s, played = some s ∧
    ImuSystem.of_connection 1 s.node.samples = (ImuSystem.of_connection 1 s.measured).drop 3 ∧
      ∀ e, ∃ s', ImuSystem.next calm imu_parameters 1 {} 51 s e s' := by
  obtain ⟨s, hs⟩ : ∃ s, played = some s := Option.isSome_iff_exists.mp (by decide +kernel)
  have hmeasured := ImuSystem.samples_are_measured (Run.of_foldlM hs)
  exact ⟨s, hs, hmeasured.1 1, hmeasured.2.2 le_rfl⟩

end IotRobot.Imu
