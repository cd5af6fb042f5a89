import Mathlib.Algebra.Order.Field.Basic
import Mathlib.Data.List.FinRange
import Mathlib.Data.Rat.Cast.OfScientific

/-!
# The IMU node

`GyroBiasEstimator` of `lsm9ds1.py` and `Lsm9ds1Node` of `lsm9ds1_node.py`. What the sensor
answers, and the clock readings, come with each poll of the timer.
-/

namespace IotRobot.Imu

set_option autoImplicit false

/-- Values of the x, y and z axis. -/
abbrev Axes (K : Type) := Fin 3 → K

section Estimator
variable (K : Type)

/-- A window is never full: the sample that fills it empties it. -/
structure GyroBiasEstimator where
  samples : Nat
  tolerance : K
  window : List (Axes K)
  rejected : Nat
  room : window.length < samples

end Estimator

namespace GyroBiasEstimator
variable {K : Type}

def init (samples : Nat) (tolerance : K) (h : 1 ≤ samples) : GyroBiasEstimator K where
  samples := samples
  tolerance := tolerance
  window := []
  rejected := 0
  room := h

/-- The estimator with an empty window. -/
def emptied (e : GyroBiasEstimator K) (rejected : Nat) : GyroBiasEstimator K where
  samples := e.samples
  tolerance := e.tolerance
  window := []
  rejected := rejected
  room := Nat.zero_lt_of_lt e.room

variable [Field K] [LinearOrder K]

def mean (window : List (Axes K)) : Axes K := fun axis =>
  (window.map fun sample => sample axis).sum / window.length

/-- A sample is farther from the mean than `tolerance` on some axis. -/
def moved (tolerance : K) (window : List (Axes K)) : Bool :=
  window.any fun sample => (List.finRange 3).any fun axis =>
    decide (tolerance < |sample axis - mean window axis|)

/-- Add one angular rate. Returns the bias once a still window is full. -/
def add (e : GyroBiasEstimator K) (rate : Axes K) : Option (Axes K) × GyroBiasEstimator K :=
  let window := e.window ++ [rate]
  if h : window.length < e.samples then (none, { e with window := window, room := h })
  else if moved e.tolerance window then (none, e.emptied (e.rejected + 1))
  else (some (mean window), e.emptied e.rejected)

end GyroBiasEstimator

section Records
variable (K : Type)

structure Parameters where
  gyro_bias_samples : Int
  gyro_bias_tolerance : K
  reconnect_period : K
  stale_timeout : K

/-- A message on `imu/data_raw` or `imu/mag`. -/
inductive Message where
  | imu (linear_acceleration angular_velocity : Axes K)
  | mag (magnetic_field : Axes K)

/-- A sample that the node handles, and the number of the connection that it came over. -/
structure Sample where
  connection : Nat
  accel : Axes K
  gyro : Axes K

/-- What goes wrong on the bus. -/
inductive BusError where
  | OSError
  | Lsm9ds1Error

/-- A poll of the timer: the clock readings that it may take, what opening the sensor makes, and
what reading it brings. -/
structure Poll where
  attempt : K
  opened : K
  now : K
  failed : K
  opening : Except BusError Unit
  reading : Except BusError (Option (Axes K × Axes K) × Option (Axes K))

/-- `connection` and `samples` are read by no method: the number of connections so far, and the
samples that were handled. -/
structure Lsm9ds1Node where
  bias : Option (Axes K)
  bias_estimator : Option (GyroBiasEstimator K)
  sensor : Bool := false
  next_attempt : K
  last_ag : K
  last_mag : K
  sent : List (Message K) := []
  connection : Nat := 0
  samples : List (Sample K) := []

end Records

namespace Lsm9ds1Node
variable {K : Type} [Field K] [LinearOrder K] (c : Parameters K)

/-- The node as `__init__` leaves it. -/
def init : Lsm9ds1Node K :=
  if h : 0 < c.gyro_bias_samples then
    { bias := none
      bias_estimator := some (.init c.gyro_bias_samples.toNat c.gyro_bias_tolerance (by omega))
      next_attempt := 0.0
      last_ag := 0.0
      last_mag := 0.0 }
  else
    { bias := some fun _ => 0.0
      bias_estimator := none
      next_attempt := 0.0
      last_ag := 0.0
      last_mag := 0.0 }

/-- Close the bus and try again after `reconnect_period`. -/
def fail (now : K) (s : Lsm9ds1Node K) : Lsm9ds1Node K :=
  { s with sensor := false, next_attempt := now + c.reconnect_period }

def connect (p : Poll K) (s : Lsm9ds1Node K) : Lsm9ds1Node K :=
  match p.opening with
  | .error _ => s.fail c p.failed
  | .ok _ =>
    { s with
      sensor := true
      last_ag := p.opened
      last_mag := p.opened
      connection := s.connection + 1 }

/-- Publish what the gyroscope reads without the bias. -/
def publish_imu (accel gyro bias : Axes K) (s : Lsm9ds1Node K) : Lsm9ds1Node K :=
  { s with sent := s.sent ++ [.imu accel fun axis => gyro axis - bias axis] }

def arrived (accel gyro : Axes K) (s : Lsm9ds1Node K) : Sample K := ⟨s.connection, accel, gyro⟩

def handle_sample (accel gyro : Axes K) (s : Lsm9ds1Node K) : Lsm9ds1Node K :=
  let s := { s with samples := s.samples ++ [s.arrived accel gyro] }
  match s.bias, s.bias_estimator with
  | some bias, _ => s.publish_imu accel gyro bias
  -- without a bias there is an estimator
  | none, none => s
  | none, some estimator =>
    match estimator.add gyro with
    | (none, estimator) => { s with bias_estimator := some estimator }
    | (some bias, estimator) =>
      { s with bias := some bias, bias_estimator := some estimator }.publish_imu accel gyro bias

def take_sample (p : Poll K) (sample : Option (Axes K × Axes K)) (s : Lsm9ds1Node K) :
    Lsm9ds1Node K :=
  match sample with
  | none => s
  | some (accel, gyro) => { s with last_ag := p.now }.handle_sample accel gyro

def take_field (p : Poll K) (field : Option (Axes K)) (s : Lsm9ds1Node K) : Lsm9ds1Node K :=
  match field with
  | none => s
  | some field => { s with last_mag := p.now, sent := s.sent ++ [.mag field] }

def poll (p : Poll K) (s : Lsm9ds1Node K) : Lsm9ds1Node K :=
  if s.sensor = false then
    if s.next_attempt ≤ p.attempt then s.connect c p else s
  else
    match p.reading with
    | .error _ => s.fail c p.failed
    | .ok (sample, field) =>
      let s := (s.take_sample p sample).take_field p field
      if c.stale_timeout < p.now - min s.last_ag s.last_mag then s.fail c p.failed else s

end Lsm9ds1Node

end IotRobot.Imu
