import IotRobot.Imu.Lsm9ds1
import IotRobot.Lib.Programs

/-!
# The driver of the LSM9DS1 and the chip

`Lsm9ds1` of `lsm9ds1.py` on an I2C bus with the chip that `FakeSMBus` of the tests describes. What
the sensors offer, which operations fail and when a reset is done are up to a `Wire`, read by the
number of the operation. A chip that is powered down offers no samples, and without block data
update the bytes of a burst may belong to different samples.
-/

namespace IotRobot.Imu

open Lib Prog

set_option autoImplicit false

inductive Chip where
  | ag
  | mag
  deriving DecidableEq

def WHO_AM_I : Nat := 0x0F
def CTRL_REG1_G : Nat := 0x10
def STATUS_REG : Nat := 0x17
def OUT_X_L_G : Nat := 0x18
def CTRL_REG6_XL : Nat := 0x20
def CTRL_REG8 : Nat := 0x22
def OUT_X_L_XL : Nat := 0x28
def AG_ID : Nat := 0x68
def CTRL_REG1_M : Nat := 0x20
def CTRL_REG2_M : Nat := 0x21
def CTRL_REG3_M : Nat := 0x22
def CTRL_REG4_M : Nat := 0x23
def CTRL_REG5_M : Nat := 0x24
def STATUS_REG_M : Nat := 0x27
def OUT_X_L_M : Nat := 0x28
def MAG_ID : Nat := 0x3D
def MAG_AUTO_INCREMENT : Nat := 0x80

def CTRL_REG8_BDU : Nat := 0x40
def CTRL_REG8_IF_ADD_INC : Nat := 0x04
def CTRL_REG8_SW_RESET : Nat := 0x01
def CTRL_REG2_M_SOFT_RST : Nat := 0x04
def STATUS_GDA : Nat := 0x02
def STATUS_XLDA : Nat := 0x01
def STATUS_M_ZYXDA : Nat := 0x08

def CTRL_REG1_M_VALUE : Nat := 0x80 ||| 0b11 <<< 5 ||| 0b111 <<< 2
def CTRL_REG3_M_CONTINUOUS : Nat := 0x00
def CTRL_REG4_M_VALUE : Nat := 0b11 <<< 2
def CTRL_REG5_M_BDU : Nat := 0x40

/-- The output data rates, in Hz. -/
inductive Odr where
  | hz59_5
  | hz119
  | hz238
  | hz476
  | hz952

def ODR_BITS : Odr → Nat
  | .hz59_5 => 0b010
  | .hz119 => 0b011
  | .hz238 => 0b100
  | .hz476 => 0b101
  | .hz952 => 0b110

def TURN_ON_SAMPLES : Odr → Nat
  | .hz59_5 => 3
  | .hz119 => 3
  | .hz238 => 4
  | .hz476 => 5
  | .hz952 => 8

inductive AccelRange where
  | g2
  | g4
  | g8
  | g16

inductive GyroRange where
  | dps245
  | dps500
  | dps2000

inductive MagRange where
  | gauss4
  | gauss8
  | gauss12
  | gauss16

section Tables
variable {K : Type} [Field K]

/-- The register bits, and mg per LSB. -/
def ACCEL_RANGES : AccelRange → Nat × K
  | .g2 => (0b00, 0.061)
  | .g4 => (0b10, 0.122)
  | .g8 => (0b11, 0.244)
  | .g16 => (0b01, 0.732)

/-- The register bits, and mdps per LSB. -/
def GYRO_RANGES : GyroRange → Nat × K
  | .dps245 => (0b00, 8.75)
  | .dps500 => (0b01, 17.50)
  | .dps2000 => (0b11, 70.0)

/-- The register bits, and mgauss per LSB. -/
def MAG_RANGES : MagRange → Nat × K
  | .gauss4 => (0b00, 0.14)
  | .gauss8 => (0b01, 0.29)
  | .gauss12 => (0b10, 0.43)
  | .gauss16 => (0b11, 0.58)

def STANDARD_GRAVITY : K := 9.80665
def TESLA_PER_GAUSS : K := 1e-4
def RESET_POLL_INTERVAL : K := 0.002
def RESET_TIMEOUT : K := 0.1

end Tables

/-- The settings of a driver, which its constructor takes from the tables. The addresses only
show in the texts of errors. -/
structure Settings where
  ag_address : Nat := 0x6B
  mag_address : Nat := 0x1E
  accel_range : AccelRange := .g4
  gyro_range : GyroRange := .dps500
  mag_range : MagRange := .gauss4
  odr : Odr := .hz119

inductive Lsm9ds1Error where
  | no_answer (name : String) (address : Nat) (strerror : String)
  | other_chip (address found expected : Nat) (name : String)
  | reset

/-- `0x` and two digits, as `{n:02X}` writes them. -/
def hex (n : Nat) : String :=
  let digits := (String.ofList (Nat.toDigits 16 n)).toUpper
  "0x" ++ if n < 16 then "0" ++ digits else digits

def Lsm9ds1Error.text : Lsm9ds1Error → String
  | .no_answer name address strerror =>
    s!"No LSM9DS1 {name} answers at I2C address {hex address} ({strerror})"
  | .other_chip address found expected name =>
    s!"The device at I2C address {hex address} reports WHO_AM_I {hex found}, not {hex expected} for an " ++
      s!"LSM9DS1 {name}. Check the address parameters"
  | .reset => "The LSM9DS1 did not finish its software reset"

/-- What a driver raises. -/
inductive Fault where
  | os_error (strerror : String)
  | lsm9ds1_error (error : Lsm9ds1Error)

abbrev Vector16 := Fin 3 → BitVec 16

/-- What the sensors offer. -/
structure Offer where
  accel : Vector16
  gyro : Vector16
  mag : Vector16
  new_ag : Bool
  new_mag : Bool

/-- What the operations `0, 1, …` on the bus meet: the error that they fail with, whether a
pending reset is done, and what the sensors offer at each byte. -/
structure Wire where
  fails : Nat → Option String
  resets : Nat → Bool
  offers : Nat → Nat → Offer

def Chip.reset_register : Chip → Nat
  | .ag => CTRL_REG8
  | .mag => CTRL_REG2_M

def Chip.reset_bit : Chip → Nat
  | .ag => CTRL_REG8_SW_RESET
  | .mag => CTRL_REG2_M_SOFT_RST

/-- `AG_WRITABLE` and `MAG_WRITABLE`. -/
def Chip.writable (register : Nat) : Chip → Bool
  | .ag =>
    (0x04 ≤ register && register < 0x0E) || (0x10 ≤ register && register < 0x14) ||
      (0x1E ≤ register && register < 0x25) || register = 0x2E || (0x30 ≤ register && register < 0x38)
  | .mag =>
    (0x05 ≤ register && register < 0x0B) || (0x20 ≤ register && register < 0x25) ||
      register = 0x30 || register = 0x32 || register = 0x33

/-- `AG_DEFAULTS` and `MAG_DEFAULTS`; the other writable registers are 0. -/
def Chip.defaults : Chip → Nat → Option Nat
  | .ag, 0x0F => some 0x68
  | .ag, 0x1E => some 0x38
  | .ag, 0x1F => some 0x38
  | .ag, 0x22 => some 0x04
  | .mag, 0x0F => some 0x3D
  | .mag, 0x20 => some 0x10
  | .mag, 0x22 => some 0x03
  | _, _ => none

/-- A register after a reset, which leaves what cannot be written. -/
def Chip.reset_value (register value : Nat) (chip : Chip) : Nat :=
  match chip.defaults register with
  | some default => default
  | none => if chip.writable register then 0 else value

/-- The registers of the two devices and their pending resets, the number of operations so far,
and the driver's count of samples to drop. -/
structure Sensor where
  regs : Chip → Nat → Nat
  resetting : Chip → Bool := fun _ => false
  ops : Nat := 0
  discard : Nat := 0

namespace Sensor

/-- A register of a device gets a value. -/
def set (chip : Chip) (register value : Nat) (s : Sensor) : Sensor :=
  { s with regs := fun other r => if other = chip ∧ r = register then value else s.regs other r }

def reset (chip : Chip) (s : Sensor) : Sensor :=
  { s with
    regs := fun other r => if other = chip then chip.reset_value r (s.regs chip r) else s.regs other r
    resetting := fun other => if other = chip then false else s.resetting other }

/-- The device is in normal mode or continuous conversion. -/
def powered (chip : Chip) (s : Sensor) : Bool :=
  match chip with
  | .ag => s.regs .ag CTRL_REG1_G >>> 5 ≠ 0
  | .mag => s.regs .mag CTRL_REG3_M &&& 0b11 = 0

/-- Block data update is on. -/
def blocks (chip : Chip) (s : Sensor) : Bool :=
  match chip with
  | .ag => s.regs .ag CTRL_REG8 &&& CTRL_REG8_BDU ≠ 0
  | .mag => s.regs .mag CTRL_REG5_M &&& CTRL_REG5_M_BDU ≠ 0

/-- A burst goes on with the next register. -/
def increments (chip : Chip) (register : Nat) (s : Sensor) : Bool :=
  match chip with
  | .ag => s.regs .ag CTRL_REG8 &&& CTRL_REG8_IF_ADD_INC ≠ 0
  | .mag => register &&& MAG_AUTO_INCREMENT ≠ 0

/-- Byte `j` of a vector, little endian. -/
def byte_of (v : Vector16) (j : Nat) : Nat :=
  let value := (v ⟨j / 2 % 3, Nat.mod_lt _ (Nat.zero_lt_succ 2)⟩).toNat
  if j % 2 = 0 then value % 256 else value / 256

/-- What a read of a register finds when the sensors offer `offer`. -/
def look (chip : Chip) (register : Nat) (offer : Offer) (s : Sensor) : Nat :=
  match chip with
  | .ag =>
    if register = STATUS_REG then
      if offer.new_ag && s.powered .ag then STATUS_GDA ||| STATUS_XLDA else 0
    else if OUT_X_L_G ≤ register ∧ register < OUT_X_L_G + 6 then byte_of offer.gyro (register - OUT_X_L_G)
    else if OUT_X_L_XL ≤ register ∧ register < OUT_X_L_XL + 6 then byte_of offer.accel (register - OUT_X_L_XL)
    else s.regs .ag register
  | .mag =>
    if register = STATUS_REG_M then if offer.new_mag && s.powered .mag then 0x0F else 0
    else if OUT_X_L_M ≤ register ∧ register < OUT_X_L_M + 6 then byte_of offer.mag (register - OUT_X_L_M)
    else s.regs .mag register

end Sensor

section Bus
variable (w : Wire)

/-- An operation on the bus fails or is carried out. -/
def operate {α : Type} (f : Nat → Sensor → α × Sensor) : Prog Sensor Fault α := fun s =>
  match w.fails s.ops with
  | some strerror => (.raised (.os_error strerror), { s with ops := s.ops + 1 })
  | none =>
    let (a, s') := f s.ops { s with ops := s.ops + 1 }
    (.returned a, s')

def write_byte_data (chip : Chip) (register value : Nat) : Prog Sensor Fault Unit :=
  operate w fun _ s =>
    let s := s.set chip register value
    if register = chip.reset_register ∧ value &&& chip.reset_bit ≠ 0 then
      ((), { s with resetting := fun other => if other = chip then true else s.resetting other })
    else ((), s)

def read_byte_data (chip : Chip) (register : Nat) : Prog Sensor Fault Nat :=
  operate w fun n s =>
    let s := if s.resetting chip ∧ register = chip.reset_register ∧ w.resets n then s.reset chip else s
    (s.look chip register (w.offers n 0), s)

def read_i2c_block_data (chip : Chip) (register length : Nat) : Prog Sensor Fault (List Nat) :=
  operate w fun n s =>
    let first := if chip = .mag then register &&& 0x7F else register
    ((List.range length).map fun i =>
      let register := if s.increments chip register then first + i else first
      s.look chip register (w.offers n (if s.blocks chip then 0 else i)), s)

/-- How a look at the reset bits ends. -/
inductive ResetPoll where
  | done
  | pending
  | failed (strerror : String)

def check_id (chip : Chip) (address register expected : Nat) (name : String) : Prog Sensor Fault Unit := do
  let found ← handle (read_byte_data w chip register) fun fault =>
    match fault with
    | .os_error strerror => raise (.lsm9ds1_error (.no_answer name address strerror))
    | .lsm9ds1_error error => raise (.lsm9ds1_error error)
  if found ≠ expected then raise (.lsm9ds1_error (.other_chip address found expected name)) else pure ()

/-- One look at the reset bits; a failed read counts as not finished yet. -/
def poll_reset : Prog Sensor Fault ResetPoll :=
  handle
    (do
      let ag ← read_byte_data w .ag CTRL_REG8
      let mag ← read_byte_data w .mag CTRL_REG2_M
      if ag &&& CTRL_REG8_SW_RESET = 0 ∧ mag &&& CTRL_REG2_M_SOFT_RST = 0 then pure .done
      else pure .pending)
    fun fault =>
      match fault with
      | .os_error strerror => pure (.failed strerror)
      | .lsm9ds1_error error => raise (.lsm9ds1_error error)

section Reset
variable (K : Type) [Field K] [LinearOrder K]

/-- A round of `_wait_for_reset`. -/
def reset_round (deadline : K) : Prog Sensor Fault (Unit ⊕ K) := do
  match ← poll_reset w with
  | .done => pure (.inl ())
  | .pending =>
    if deadline ≤ 0 then raise (.lsm9ds1_error .reset) else pure (.inr (deadline - RESET_POLL_INTERVAL))
  | .failed strerror =>
    if deadline ≤ 0 then raise (.os_error strerror) else pure (.inr (deadline - RESET_POLL_INTERVAL))

def wait_for_reset (rounds : Nat) : Prog Sensor Fault Unit :=
  forever (reset_round w K) rounds RESET_TIMEOUT

variable (st : Settings)

def begin_ (rounds : Nat) : Prog Sensor Fault Unit := do
  check_id w .ag st.ag_address WHO_AM_I AG_ID "accelerometer/gyroscope"
  check_id w .mag st.mag_address WHO_AM_I MAG_ID "magnetometer"
  write_byte_data w .ag CTRL_REG8 (CTRL_REG8_IF_ADD_INC ||| CTRL_REG8_SW_RESET)
  write_byte_data w .mag CTRL_REG2_M CTRL_REG2_M_SOFT_RST
  wait_for_reset w K rounds
  write_byte_data w .ag CTRL_REG8 (CTRL_REG8_BDU ||| CTRL_REG8_IF_ADD_INC)
  let odr := ODR_BITS st.odr
  write_byte_data w .ag CTRL_REG1_G (odr <<< 5 ||| (GYRO_RANGES (K := K) st.gyro_range).1 <<< 3)
  write_byte_data w .ag CTRL_REG6_XL (odr <<< 5 ||| (ACCEL_RANGES (K := K) st.accel_range).1 <<< 3)
  write_byte_data w .mag CTRL_REG1_M CTRL_REG1_M_VALUE
  write_byte_data w .mag CTRL_REG2_M ((MAG_RANGES (K := K) st.mag_range).1 <<< 5)
  write_byte_data w .mag CTRL_REG4_M CTRL_REG4_M_VALUE
  write_byte_data w .mag CTRL_REG5_M CTRL_REG5_M_BDU
  write_byte_data w .mag CTRL_REG3_M CTRL_REG3_M_CONTINUOUS
  update fun s => { s with discard := TURN_ON_SAMPLES st.odr }

end Reset

/-- `_int16`. -/
def int16 (low high : Nat) : Int :=
  let value := low ||| high <<< 8
  if value &&& 0x8000 ≠ 0 then (value : Int) - 0x10000 else value

section Readings
variable {K : Type} [Field K] (degree : K) (st : Settings)

/-- `_vector`. -/
def vector (data : List Nat) (scale : K) : Axes K := fun i =>
  (int16 (data.getD (2 * i.val) 0) (data.getD (2 * i.val + 1) 0) : K) * scale

def accel_scale : K := (ACCEL_RANGES st.accel_range).2 * 1e-3 * STANDARD_GRAVITY

/-- `math.radians` multiplies by `degree`. -/
def gyro_scale : K := (GYRO_RANGES st.gyro_range).2 * 1e-3 * degree

def mag_scale : K := (MAG_RANGES st.mag_range).2 * 1e-3 * TESLA_PER_GAUSS

/-- The axes of the accelerometer and gyroscope in those of imu_link. -/
def imu_link (v : Axes K) : Axes K := fun i => if i.val = 0 then -v i else v i

def read_accel_gyro : Prog Sensor Fault (Option (Axes K × Axes K)) := do
  let data ← read_i2c_block_data w .ag STATUS_REG 7
  if data.getD 0 0 &&& STATUS_GDA = 0 then pure none
  else
    let accel ← read_i2c_block_data w .ag OUT_X_L_XL 6
    let discard ← read Sensor.discard
    if 0 < discard then do
      update fun s => { s with discard := discard - 1 }
      pure none
    else
      pure (some (imu_link (vector accel (accel_scale st)), imu_link (vector data.tail (gyro_scale degree st))))

def read_mag : Prog Sensor Fault (Option (Axes K)) := do
  let data ← read_i2c_block_data w .mag (STATUS_REG_M ||| MAG_AUTO_INCREMENT) 7
  if data.getD 0 0 &&& STATUS_M_ZYXDA = 0 then pure none
  else pure (some (vector data.tail (mag_scale st)))

/-- What `poll` reads from the sensor. -/
def read_all : Prog Sensor Fault (Option (Axes K × Axes K) × Option (Axes K)) := do
  let sample ← read_accel_gyro w degree st
  let field ← read_mag w st
  pure (sample, field)

end Readings

end Bus

end IotRobot.Imu
