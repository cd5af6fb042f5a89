import IotRobot.Can.StatusCodec

/-!
# Command frames, written three times and read once

`encode_command` and `decode_command` of `fake_cubemars.py`, and what an emulated motor does
with a command. The bench tool and the hardware plugin write speed commands of their own.
-/

namespace IotRobot.Can

open Lib

set_option autoImplicit false

def MODE_DUTY : Nat := 0
def MODE_BRAKE : Nat := 2
def MODE_POSITION : Nat := 4
def MODE_SET_ORIGIN : Nat := 5
def MODE_POSITION_SPEED : Nat := 6

def ORIGIN_PERMANENT : Int := 1
def ORIGIN_DEFAULT : Int := 2

def FitsInt16 (value : Int) : Prop := -32768 ≤ value ∧ value ≤ 32767

instance (value : Int) : Decidable (FitsInt16 value) := inferInstanceAs (Decidable (_ ∧ _))

/-- `struct.pack(">h", value)`. -/
def pack_int16 (value : Int) : Except EncodeError (List UInt8) :=
  if FitsInt16 value then .ok (int16_bytes value) else .error .struct_error

/-- `bytes([value])`. -/
def pack_byte (value : Int) : Except EncodeError (List UInt8) :=
  if 0 ≤ value ∧ value < 256 then .ok [low_byte value]
  else .error (.value_error "bytes must be in range(0, 256)")

/-- `struct.unpack(">i", bytes)`. -/
def int32 (b3 b2 b1 b0 : UInt8) : Int :=
  Int.bmod (b3.toNat * 16777216 + b2.toNat * 65536 + b1.toNat * 256 + b0.toNat) 4294967296

theorem int32_be_int32 {value : Int} (h : FitsInt32 value) :
    ∃ b3 b2 b1 b0, be_int32 value = [b3, b2, b1, b0] ∧ int32 b3 b2 b1 b0 = value := by
  obtain ⟨hlow, hhigh⟩ := h
  refine ⟨_, _, _, _, rfl, ?_⟩
  have hb3 : (value % 4294967296).toNat / 16777216 < 256 := by omega
  have hb2 : (value % 4294967296).toNat / 65536 % 256 < 256 := by omega
  have hb1 : (value % 4294967296).toNat / 256 % 256 < 256 := by omega
  have hb0 : (value % 4294967296).toNat % 256 < 256 := by omega
  unfold int32
  rw [UInt8.toNat_ofNat_of_lt' hb3, UInt8.toNat_ofNat_of_lt' hb2, UInt8.toNat_ofNat_of_lt' hb1,
    UInt8.toNat_ofNat_of_lt' hb0]
  have hsplit : (((value % 4294967296).toNat / 16777216 : Nat) : Int) * 16777216 +
      ((value % 4294967296).toNat / 65536 % 256 : Nat) * 65536 +
      ((value % 4294967296).toNat / 256 % 256 : Nat) * 256 +
      ((value % 4294967296).toNat % 256 : Nat) = value % 4294967296 := by omega
  rw [hsplit]
  unfold Int.bmod
  dsimp only
  split <;> omega

section Commands
variable {K : Type} [Field K] [LinearOrder K] [FloorRing K]

/-- `struct.pack(">ihh", position, speed, acceleration)`. -/
def pack_position_speed (position speed acceleration : Int) : Except EncodeError (List UInt8) := do
  let position ← pack_int32 position
  let speed ← pack_int16 speed
  let acceleration ← pack_int16 acceleration
  return position ++ speed ++ acceleration

/-- Servo-mode command frame. -/
def encode_command (can_id mode : Nat) (value speed_erpm acceleration : K) :
    Except EncodeError CanFrame := do
  let arbitration_id := mode <<< 8 ||| can_id
  let data ←
    if mode = MODE_DUTY then pack_int32 (truncate (value * 100000.0))
    else if mode = MODE_CURRENT ∨ mode = MODE_BRAKE then pack_int32 (truncate (value * 1000.0))
    else if mode = MODE_SPEED then pack_int32 (truncate value)
    else if mode = MODE_POSITION then pack_int32 (truncate (value * 10000.0))
    else if mode = MODE_SET_ORIGIN then pack_byte (truncate value)
    else if mode = MODE_POSITION_SPEED then
      pack_position_speed (truncate (value * 10000.0)) (truncate (speed_erpm / 10.0))
        (truncate (acceleration / 10.0))
    else .error (.value_error s!"unknown servo mode {mode}")
  return ⟨arbitration_id, data⟩

omit [LinearOrder K] [FloorRing K] in
/-- Main value of a servo command; `none` if it is too short or has no mode. -/
def decode_command (mode : Nat) (data : List UInt8) : Option K :=
  if mode = MODE_SET_ORIGIN then data.head?.map fun byte => (byte.toNat : K)
  else
    match data with
    | b3 :: b2 :: b1 :: b0 :: _ =>
      let raw : K := int32 b3 b2 b1 b0
      if mode = MODE_DUTY then some (raw / 100000.0)
      else if mode = MODE_CURRENT ∨ mode = MODE_BRAKE then some (raw / 1000.0)
      else if mode = MODE_SPEED then some raw
      else if mode = MODE_POSITION ∨ mode = MODE_POSITION_SPEED then some (raw / 10000.0)
      else none
    | _ => none

/-- The unit of a mode's value, as a part of one. -/
def command_scale (mode : Nat) : K :=
  if mode = MODE_DUTY then 100000.0
  else if mode = MODE_CURRENT ∨ mode = MODE_BRAKE then 1000.0
  else if mode = MODE_SPEED then 1
  else 10000.0

/-- The identifier of a command splits into its mode and its motor. -/
theorem command_id_split {can_id : Nat} (h : can_id < 256) (mode : Nat) :
    (mode <<< 8 ||| can_id) >>> 8 = mode ∧ (mode <<< 8 ||| can_id) &&& 0xFF = can_id := by
  rw [← Nat.shiftLeft_add_eq_or_of_lt (by omega), Nat.shiftLeft_eq, Nat.shiftRight_eq_div_pow,
    show (0xFF : Nat) = 2 ^ 8 - 1 from rfl, Nat.and_two_pow_sub_one_eq_mod]
  omega

/-- The modes but the one that sets the origin. -/
theorem position_mode {mode : Nat} (hmode : mode < 7) (horigin : mode ≠ MODE_SET_ORIGIN)
    (hduty : mode ≠ MODE_DUTY) (hcurrent : ¬ (mode = MODE_CURRENT ∨ mode = MODE_BRAKE))
    (hspeed : mode ≠ MODE_SPEED) : mode = MODE_POSITION ∨ mode = MODE_POSITION_SPEED := by
  unfold MODE_SET_ORIGIN at horigin
  unfold MODE_DUTY at hduty
  unfold MODE_CURRENT MODE_BRAKE at hcurrent
  unfold MODE_SPEED at hspeed
  unfold MODE_POSITION MODE_POSITION_SPEED
  omega

omit [LinearOrder K] [FloorRing K] in
/-- What a mode with a scale puts into a frame reads back as what the frame carries. -/
theorem decode_command_packed {mode : Nat} (hmode : mode < 7) (horigin : mode ≠ MODE_SET_ORIGIN)
    {n : Int} (h : FitsInt32 n) (more : List UInt8) :
    decode_command mode (be_int32 n ++ more) = some ((n : K) / command_scale mode) := by
  obtain ⟨b3, b2, b1, b0, hbytes, hint⟩ := int32_be_int32 h
  unfold decode_command command_scale
  rw [hbytes, if_neg horigin]
  dsimp only [List.cons_append]
  rw [hint]
  by_cases hduty : mode = MODE_DUTY
  · rw [if_pos hduty, if_pos hduty]
  rw [if_neg hduty, if_neg hduty]
  by_cases hcurrent : mode = MODE_CURRENT ∨ mode = MODE_BRAKE
  · rw [if_pos hcurrent, if_pos hcurrent]
  rw [if_neg hcurrent, if_neg hcurrent]
  by_cases hspeed : mode = MODE_SPEED
  · rw [if_pos hspeed, if_pos hspeed, div_one]
  rw [if_neg hspeed, if_neg hspeed, if_pos (position_mode hmode horigin hduty hcurrent hspeed)]

/-- What `encode_command` puts into a frame, with further fields that fit behind it. -/
theorem encode_command_ok {can_id mode : Nat} (hmode : mode < 7) (horigin : mode ≠ MODE_SET_ORIGIN)
    {value : K} (h : FitsInt32 (truncate (value * command_scale mode))) {speed_erpm acceleration : K}
    (hspeed : FitsInt16 (truncate (speed_erpm / 10.0)))
    (hacceleration : FitsInt16 (truncate (acceleration / 10.0))) :
    ∃ more, encode_command can_id mode value speed_erpm acceleration =
      .ok ⟨mode <<< 8 ||| can_id, be_int32 (truncate (value * command_scale mode)) ++ more⟩ := by
  have hpack16 {n : Int} (h : FitsInt16 n) : pack_int16 n = .ok (int16_bytes n) := if_pos h
  unfold command_scale at h ⊢
  unfold encode_command
  by_cases hduty : mode = MODE_DUTY
  · rw [if_pos hduty] at h ⊢
    rw [if_pos hduty, pack_int32_ok h]
    exact ⟨[], by rw [List.append_nil]; rfl⟩
  rw [if_neg hduty] at h ⊢
  rw [if_neg hduty]
  by_cases hcurrent : mode = MODE_CURRENT ∨ mode = MODE_BRAKE
  · rw [if_pos hcurrent] at h ⊢
    rw [if_pos hcurrent, pack_int32_ok h]
    exact ⟨[], by rw [List.append_nil]; rfl⟩
  rw [if_neg hcurrent] at h ⊢
  rw [if_neg hcurrent]
  by_cases hmode_speed : mode = MODE_SPEED
  · rw [if_pos hmode_speed, mul_one] at h
    rw [if_pos hmode_speed, if_pos hmode_speed, mul_one, pack_int32_ok h]
    exact ⟨[], by rw [List.append_nil]; rfl⟩
  rw [if_neg hmode_speed] at h ⊢
  rw [if_neg hmode_speed]
  by_cases hposition : mode = MODE_POSITION
  · rw [if_pos hposition, pack_int32_ok h]
    exact ⟨[], by rw [List.append_nil]; rfl⟩
  have hboth := (position_mode hmode horigin hduty hcurrent hmode_speed).resolve_left hposition
  rw [if_neg hposition, if_neg horigin, if_pos hboth]
  unfold pack_position_speed
  rw [pack_int32_ok h, hpack16 hspeed, hpack16 hacceleration]
  exact ⟨_, by rw [← List.append_assoc]; rfl⟩

inductive MotorMode where
  | idle
  | current
  | brake
  | speed
  | position
  deriving DecidableEq

section Motor
variable (K : Type)

/-- What a command reads and writes of a `FakeMotor`. -/
structure FakeMotor where
  encoder_deg : K
  origin_deg : K
  permanent_origin_deg : K
  error : Int
  mode : MotorMode
  command_current_a : K
  target_erpm : K
  target_deg : K
  move_dps : K
  position_speed_dps : K
  ignore_origin : Bool
  last_command : Option K
  pole_pairs : Int
  gear_ratio : Int

end Motor

/-- Gearbox output speed in deg/s. -/
def output_dps (erpm : K) (pole_pairs gear_ratio : Int) : Except (Exception K) K :=
  if pole_pairs * gear_ratio = 0 then .error .zero_division_error
  else .ok (erpm * 6.0 / (pole_pairs * gear_ratio : Int))

/-- Speed at duty cycle 1. -/
def FULL_DUTY_ERPM : K := 75.0 * 24.0 * (POLE_PAIRS : Int)

namespace FakeMotor

def set_origin (value : K) (m : FakeMotor K) : FakeMotor K :=
  if value = (ORIGIN_DEFAULT : Int) then { m with origin_deg := 0.0, permanent_origin_deg := 0.0 }
  else if value = (ORIGIN_PERMANENT : Int) then
    { m with origin_deg := m.encoder_deg, permanent_origin_deg := m.encoder_deg }
  else { m with origin_deg := m.encoder_deg }

/-- The speed that a position-speed command asks for. -/
def commanded_speed (data : List UInt8) : K :=
  match data with
  | _ :: _ :: _ :: _ :: s1 :: s0 :: _ => |int16 s1 s0 * 10.0|
  | _ => 0.0

/-- Apply a servo command frame; `false` if the frame was ignored. -/
def command (mode : Nat) (data : List UInt8) (now : K) (m : FakeMotor K) :
    Except (Exception K) Bool × FakeMotor K :=
  match decode_command mode data with
  | none => (.ok false, m)
  | some value =>
    let m := { m with last_command := some now }
    if mode = MODE_SET_ORIGIN then
      if m.ignore_origin then (.ok false, m) else (.ok true, m.set_origin value)
    -- a faulted drive does not drive until the fault clears
    else if m.error ≠ 0 then (.ok false, m)
    else if mode = MODE_DUTY then (.ok true, { m with mode := .speed, target_erpm := value * FULL_DUTY_ERPM })
    else if mode = MODE_CURRENT then
      (.ok true, { m with command_current_a := value, mode := if value ≠ 0.0 then .current else .idle })
    else if mode = MODE_BRAKE then (.ok true, { m with mode := .brake, command_current_a := value })
    else if mode = MODE_SPEED then (.ok true, { m with mode := .speed, target_erpm := value })
    else if mode = MODE_POSITION then
      (.ok true, { m with mode := .position, target_deg := value, move_dps := m.position_speed_dps })
    else if mode = MODE_POSITION_SPEED then
      let speed_erpm : K := commanded_speed data
      let m := { m with mode := .position, target_deg := value }
      if speed_erpm = 0 then (.ok true, { m with move_dps := m.position_speed_dps })
      else
        match output_dps speed_erpm m.pole_pairs m.gear_ratio with
        | .error e => (.error e, m)
        | .ok dps => (.ok true, { m with move_dps := min m.position_speed_dps dps })
    else (.ok false, m)

omit [FloorRing K] in
/-- A payload without a main value is ignored. -/
theorem command_short {mode : Nat} {data : List UInt8}
    (h : if mode = MODE_SET_ORIGIN then data = [] else data.length < 4) (now : K) (m : FakeMotor K) :
    m.command mode data now = (.ok false, m) := by
  have hnone : (decode_command mode data : Option K) = none := by
    unfold decode_command
    by_cases horigin : mode = MODE_SET_ORIGIN
    · rw [if_pos horigin] at h ⊢
      rw [h]
      rfl
    · rw [if_neg horigin] at h ⊢
      match data with
      | [] | [_] | [_, _] | [_, _, _] => rfl
      | _ :: _ :: _ :: _ :: more =>
        simp only [List.length_cons] at h
        omega
  unfold command
  rw [hnone]

end FakeMotor

variable [IsStrictOrderedRing K]

/-- The limit of the bench tool keeps the truncated speed within a 32-bit field. -/
theorem truncate_speed {erpm : K} (h : |erpm| < (MAX_ERPM : Int)) :
    |truncate erpm| < MAX_ERPM ∧ FitsInt32 (truncate erpm) := by
  have hlimit : |truncate erpm| < MAX_ERPM := by
    have hcast := (abs_truncate_le erpm).trans_lt h
    rwa [← Int.cast_abs, Int.cast_lt] at hcast
  have hrange := abs_lt.mp hlimit
  unfold MAX_ERPM at hrange
  exact ⟨hlimit, by unfold FitsInt32; omega⟩

/-- The bench tool's speed command is the emulator's and the plugin's. -/
theorem encode_speed_frame (can_id : Nat) {erpm : K} (h : |erpm| < (MAX_ERPM : Int)) :
    encode_speed can_id (.fin erpm) =
        .ok (int32_frame (MODE_SPEED <<< 8 ||| can_id) (Int32.ofInt (truncate erpm))) ∧
      encode_command can_id MODE_SPEED erpm 0.0 0.0 =
        .ok (int32_frame (MODE_SPEED <<< 8 ||| can_id) (Int32.ofInt (truncate erpm))) := by
  obtain ⟨hlimit, hfits⟩ := truncate_speed h
  constructor
  · exact encode_speed_ok can_id hlimit
  · unfold encode_command
    rw [if_neg (by decide), if_neg (by decide), if_pos rfl, pack_int32_ok hfits, int32_frame_ofInt]
    rfl

/-- A command frame means the same to its sender and to the motor. -/
theorem commands_mean_the_same :
    (∀ (can_id mode : Nat) (value : K), mode < 7 → mode ≠ MODE_SET_ORIGIN →
      FitsInt32 (truncate (value * command_scale mode)) →
      ∃ frame, encode_command can_id mode value 0.0 0.0 = .ok frame ∧
        decode_command mode frame.data =
          some ((truncate (value * command_scale mode) : K) / command_scale mode) ∧
        (can_id < 256 → frame.id >>> 8 = mode ∧ frame.id &&& 0xFF = can_id)) ∧
    (∀ (can_id : Nat) (erpm : K), |erpm| < (MAX_ERPM : Int) → ∃ frame,
      encode_speed can_id (.fin erpm) = .ok frame ∧
      encode_command can_id MODE_SPEED erpm 0.0 0.0 = .ok frame ∧
      int32_frame (MODE_SPEED <<< 8 ||| can_id) (Int32.ofInt (truncate erpm)) = frame) ∧
    ∀ (mode : Nat) (data : List UInt8) (now : K) (m : FakeMotor K),
      (if mode = MODE_SET_ORIGIN then data = [] else data.length < 4) →
      m.command mode data now = (.ok false, m) := by
  refine ⟨?_, ?_, fun mode data now m h => m.command_short h now⟩
  · intro can_id mode value hmode horigin hfits
    have hzero : FitsInt16 (truncate ((0.0 : K) / 10.0)) := by
      rw [show (0.0 : K) / 10.0 = 0 by norm_num, truncate_zero]
      decide
    obtain ⟨more, hencode⟩ := encode_command_ok hmode horigin hfits hzero hzero
    exact ⟨_, hencode, decode_command_packed hmode horigin hfits more,
      fun hid => command_id_split hid mode⟩
  · intro can_id erpm h
    obtain ⟨hspeed, hcommand⟩ := encode_speed_frame can_id h
    exact ⟨_, hspeed, hcommand, rfl⟩

end Commands

/-- A brake current of -2.5006 A is a frame of -2500 mA. -/
theorem brake_current_read_back : ∃ frame,
    encode_command 11 MODE_BRAKE (-2.5006 : ℚ) 0.0 0.0 = .ok frame ∧
    decode_command MODE_BRAKE frame.data = some (-2.5 : ℚ) ∧
    frame.id >>> 8 = MODE_BRAKE ∧ frame.id &&& 0xFF = 11 := by
  have hsent : truncate ((-2.5006 : ℚ) * command_scale MODE_BRAKE) = -2500 := by decide +kernel
  obtain ⟨frame, hencode, hdecode, hid⟩ := commands_mean_the_same.1 11 MODE_BRAKE (-2.5006 : ℚ)
    (by decide) (by decide) (by rw [hsent]; decide)
  rw [hsent] at hdecode
  refine ⟨frame, hencode, hdecode.trans ?_, hid (by decide)⟩
  decide +kernel

end IotRobot.Can
