import Mathlib.Data.Nat.Bitwise

/-!
# Servo-mode CAN frames

Command frames carry the mode and the motor ID in their extended identifier,
status frames a block of eight bytes. Both programs that drive the motors, the
hardware plugin and the Python bench tool, build and read these frames: the plugin
shifts the bytes of a word, the Python programs call `struct.pack`.
-/

namespace IotRobot.Can

set_option autoImplicit false

/-- An extended frame: identifier without the EFF flag, and payload. -/
structure CanFrame where
  id : Nat
  data : List UInt8
  deriving DecidableEq

/-- A signed 16-bit field of a status frame, most significant byte first. -/
def int16 (high low : UInt8) : Int := Int.bmod (high.toNat * 256 + low.toNat) 65536

/-- A signed byte of a status frame. -/
def int8 (byte : UInt8) : Int := Int.bmod byte.toNat 256

/-- The big-endian bytes of a 32-bit payload. -/
def int32_bytes (value : Int32) : List UInt8 :=
  let raw := value.toUInt32
  [(raw >>> 24).toUInt8, (raw >>> 16).toUInt8, (raw >>> 8).toUInt8, raw.toUInt8]

/-- The frame that `send_int32` of the plugin sends. -/
def int32_frame (id : Nat) (value : Int32) : CanFrame := ⟨id, int32_bytes value⟩

/-- What goes wrong in an encoder: a number that does not fit its field, or no such byte or
mode. -/
inductive EncodeError where
  | struct_error
  | value_error (message : String)
  deriving DecidableEq

def FitsInt32 (value : Int) : Prop := -2147483648 ≤ value ∧ value ≤ 2147483647

instance (value : Int) : Decidable (FitsInt32 value) := inferInstanceAs (Decidable (_ ∧ _))

/-- The big-endian bytes of a signed 32-bit field. -/
def be_int32 (value : Int) : List UInt8 :=
  let raw := (value % 4294967296).toNat
  [UInt8.ofNat (raw / 16777216), UInt8.ofNat (raw / 65536 % 256), UInt8.ofNat (raw / 256 % 256),
    UInt8.ofNat (raw % 256)]

/-- `struct.pack(">i", value)`. -/
def pack_int32 (value : Int) : Except EncodeError (List UInt8) :=
  if FitsInt32 value then .ok (be_int32 value) else .error .struct_error

theorem toUInt32_ofInt (value : Int) :
    (Int32.ofInt value).toUInt32.toNat = (value % 4294967296).toNat :=
  BitVec.toNat_ofInt value

/-- A byte of a word, by a shift or by a division. -/
theorem shifted_byte (word shift : UInt32) (hshift : shift.toNat < 32) :
    (word >>> shift).toUInt8 = UInt8.ofNat (word.toNat / 2 ^ shift.toNat % 256) := by
  rw [← UInt8.toNat_inj, UInt32.toNat_toUInt8, UInt32.toNat_shiftRight, Nat.mod_eq_of_lt hshift,
    Nat.shiftRight_eq_div_pow, UInt8.toNat_ofNat_of_lt' (Nat.mod_lt _ (by decide : 0 < 256))]

/-- The plugin's shifts of an unsigned word give the same bytes. -/
theorem int32_bytes_ofInt (value : Int) : int32_bytes (Int32.ofInt value) = be_int32 value := by
  have hraw := toUInt32_ofInt value
  have hword := (Int32.ofInt value).toUInt32.toNat_lt
  have hlow : (Int32.ofInt value).toUInt32.toUInt8 =
      UInt8.ofNat ((Int32.ofInt value).toUInt32.toNat % 256) := by
    rw [← UInt8.toNat_inj, UInt32.toNat_toUInt8, UInt8.toNat_ofNat_of_lt' (Nat.mod_lt _ (by decide : 0 < 256))]
  have hhigh : (value % 4294967296).toNat / 16777216 % 256 = (value % 4294967296).toNat / 16777216 := by
    omega
  unfold int32_bytes be_int32
  dsimp only
  rw [shifted_byte _ 24 (by decide), shifted_byte _ 16 (by decide), shifted_byte _ 8 (by decide),
    hlow, hraw]
  rw [show (2 : Nat) ^ (24 : UInt32).toNat = 16777216 from rfl, hhigh]
  rfl

theorem int32_frame_ofInt (id : Nat) (value : Int) :
    int32_frame id (Int32.ofInt value) = ⟨id, be_int32 value⟩ := by
  unfold int32_frame
  rw [int32_bytes_ofInt]

theorem pack_int32_ok {value : Int} (h : FitsInt32 value) : pack_int32 value = .ok (be_int32 value) :=
  if_pos h

end IotRobot.Can
