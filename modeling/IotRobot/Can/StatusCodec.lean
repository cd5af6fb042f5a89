import IotRobot.Can.Cubemars
import IotRobot.Safe.StopInvariant

/-!
# Status frames, written once and read twice

The emulated motor writes a status frame, the Python tools and the hardware plugin read it.
The three agree on every payload, up to the rounding of the quantities to their units.
-/

namespace IotRobot.Can

open Lib

set_option autoImplicit false

/-- The big-endian bytes of a signed 16-bit field. -/
def int16_bytes (value : Int) : List UInt8 :=
  [UInt8.ofNat ((value % 65536).toNat / 256), UInt8.ofNat ((value % 65536).toNat % 256)]

/-- The byte of a signed 8-bit field, or the low byte of an unsigned one. -/
def low_byte (value : Int) : UInt8 := UInt8.ofNat (value % 256).toNat

theorem int16_int16_bytes {value : Int} (hlow : -32768 ≤ value) (hhigh : value ≤ 32767) :
    ∃ high low, int16_bytes value = [high, low] ∧ int16 high low = value := by
  refine ⟨_, _, rfl, ?_⟩
  have hdiv : (value % 65536).toNat / 256 < 256 := by omega
  have hmod : (value % 65536).toNat % 256 < 256 := by omega
  unfold int16
  rw [UInt8.toNat_ofNat_of_lt' hdiv, UInt8.toNat_ofNat_of_lt' hmod]
  have hsplit : (((value % 65536).toNat / 256 : Nat) : Int) * 256 +
      ((value % 65536).toNat % 256 : Nat) = value % 65536 := by omega
  rw [hsplit]
  unfold Int.bmod
  dsimp only
  split <;> omega

theorem int8_low_byte {value : Int} (hlow : -128 ≤ value) (hhigh : value ≤ 127) :
    int8 (low_byte value) = value := by
  have hbyte : (value % 256).toNat < 256 := by omega
  unfold int8 low_byte
  rw [UInt8.toNat_ofNat_of_lt' hbyte]
  have hcast : (((value % 256).toNat : Nat) : Int) = value % 256 := by omega
  rw [hcast]
  unfold Int.bmod
  dsimp only
  split <;> omega

theorem int16_range (high low : UInt8) : -32768 ≤ int16 high low ∧ int16 high low ≤ 32767 := by
  unfold int16 Int.bmod
  dsimp only
  split <;> omega

theorem int16_bytes_int16 (high low : UInt8) : int16_bytes (int16 high low) = [high, low] := by
  have hhigh := high.toNat_lt
  have hlow := low.toNat_lt
  have hemod : int16 high low % 65536 = high.toNat * 256 + low.toNat := by
    unfold int16 Int.bmod
    dsimp only
    split <;> omega
  have hnat : (int16 high low % 65536).toNat = high.toNat * 256 + low.toNat := by omega
  have hdiv : (high.toNat * 256 + low.toNat) / 256 = high.toNat := by omega
  have hmod : (high.toNat * 256 + low.toNat) % 256 = low.toNat := by omega
  unfold int16_bytes
  rw [hnat, hdiv, hmod, UInt8.ofNat_toNat, UInt8.ofNat_toNat]

theorem low_byte_int8 (byte : UInt8) : low_byte (int8 byte) = byte := by
  have hbyte := byte.toNat_lt
  have hemod : int8 byte % 256 = byte.toNat := by
    unfold int8 Int.bmod
    dsimp only
    split <;> omega
  unfold low_byte
  rw [hemod, Int.toNat_natCast, UInt8.ofNat_toNat]

theorem low_byte_toNat (byte : UInt8) : low_byte byte.toNat = byte := by
  have hbyte := byte.toNat_lt
  have hemod : ((byte.toNat : Int) % 256).toNat = byte.toNat := by omega
  unfold low_byte
  rw [hemod, UInt8.ofNat_toNat]

/-- The identifier of a motor's status frames. -/
def status_id (can_id : Nat) : Nat := STATUS <<< 8 ||| can_id

theorem status_id_eq {can_id : Nat} (h : can_id < 256) : status_id can_id = 0x2900 + can_id := by
  unfold status_id
  rw [← Nat.shiftLeft_add_eq_or_of_lt (by omega)]
  rfl

theorem status_id_shift {can_id : Nat} (h : can_id < 256) : status_id can_id >>> 8 = STATUS := by
  rw [status_id_eq h, Nat.shiftRight_eq_div_pow]
  unfold STATUS
  omega

theorem status_id_low {can_id : Nat} (h : can_id < 256) : status_id can_id &&& 0xFF = can_id := by
  rw [status_id_eq h, show (0xFF : Nat) = 2 ^ 8 - 1 from rfl, Nat.and_two_pow_sub_one_eq_mod]
  omega

/-- Whose identifier starts with the status code is some motor's. -/
theorem status_id_of_shift {id : Nat} (h : id >>> 8 = STATUS) : status_id (id &&& 0xFF) = id := by
  rw [show (0xFF : Nat) = 2 ^ 8 - 1 from rfl, Nat.and_two_pow_sub_one_eq_mod,
    status_id_eq (Nat.mod_lt _ (by omega))]
  rw [Nat.shiftRight_eq_div_pow] at h
  unfold STATUS at h
  omega

section Encoder
variable {K : Type} [Field K] [LinearOrder K] [FloorRing K]

/-- The status frame reports the position within this many degrees. -/
def MAX_STATUS_POSITION : K := 3200.0

def saturate (value : K) (low high : Int) : Int := max low (min high (round_even value))

/-- Servo-mode status frame. -/
def encode_status (can_id : Nat) (position_deg speed_erpm current_a temperature_c : K)
    (error : Int) : CanFrame :=
  let position_deg := max (-MAX_STATUS_POSITION) (min MAX_STATUS_POSITION position_deg)
  { id := STATUS <<< 8 ||| can_id
    data := int16_bytes (saturate (position_deg * 10.0) (-32768) 32767) ++
      int16_bytes (saturate (speed_erpm / 10.0) (-32768) 32767) ++
      int16_bytes (saturate (current_a * 100.0) (-32768) 32767) ++
      [low_byte (saturate temperature_c (-128) 127), low_byte error] }

omit [FloorRing K] in
/-- What the limits of a range leave of a quantity. -/
def saturated (low high x : K) : K := max low (min high x)

/-- The multiple of the unit that is nearest to a quantity, an even one of two. -/
def nearest (unit x : K) : K := round_even (x / unit) * unit

/-- A status reports the quantities, each within its range and in its unit. -/
structure Reports (status : Status K) (can_id : Nat)
    (position_deg speed_erpm current_a temperature_c : K) (error : Int) : Prop where
  can_id : status.can_id = can_id
  position_deg : status.position_deg = nearest 0.1 (saturated (-3200) 3200 position_deg)
  speed_erpm : status.speed_erpm = nearest 10 (saturated (-327680) 327670 speed_erpm)
  current_a : status.current_a = nearest 0.01 (saturated (-327.68) 327.67 current_a)
  temperature_c : status.temperature_c = nearest 1 (saturated (-128) 127 temperature_c)
  error : status.error = UInt8.ofNat (error % 256).toNat

variable [IsStrictOrderedRing K]

/-- The nearest multiple is at most half a unit away. -/
theorem nearest_within {unit : K} (hunit : 0 < unit) (x : K) : |nearest unit x - x| ≤ unit / 2 := by
  have hscale : nearest unit x - x = (round_even (x / unit) - x / unit) * unit := by
    unfold nearest
    rw [sub_mul, div_mul_cancel₀ _ hunit.ne']
  rw [hscale, abs_mul, abs_of_pos hunit]
  calc |(round_even (x / unit) : K) - x / unit| * unit
      ≤ 1 / 2 * unit := mul_le_mul_of_nonneg_right (round_even_near _) hunit.le
    _ = unit / 2 := by ring

omit [Field K] [FloorRing K] [IsStrictOrderedRing K] in
theorem saturated_within {low high x : K} (hlow : low ≤ x) (hhigh : x ≤ high) :
    saturated low high x = x := by
  unfold saturated
  rw [min_eq_right hhigh, max_eq_right hlow]

omit [IsStrictOrderedRing K] in
theorem saturate_bounds (value : K) {low high : Int} (h : low ≤ high) :
    low ≤ saturate value low high ∧ saturate value low high ≤ high :=
  ⟨le_max_left _ _, max_le h (min_le_left _ _)⟩

/-- Rounding to the unit first and then saturating the integer comes to the same. -/
theorem saturate_mul_unit {unit : K} (hunit : 0 < unit) (low high : Int) (x : K) :
    (saturate (x / unit) low high : K) * unit =
      nearest unit (saturated (low * unit) (high * unit) x) := by
  unfold nearest saturated saturate
  rw [← max_div_div_right hunit.le, ← min_div_div_right hunit.le, mul_div_cancel_right₀ _ hunit.ne',
    mul_div_cancel_right₀ _ hunit.ne', round_even_clamp]

/-- Within its range a number is only rounded. -/
theorem saturate_inactive {value : K} {low high l h : Int} (hl : low ≤ l) (hh : h ≤ high)
    (hvalue : (l : K) ≤ value ∧ value ≤ (h : K)) : saturate value low high = round_even value := by
  have hlow := round_even_mono hvalue.1
  have hhigh := round_even_mono hvalue.2
  rw [round_even_intCast] at hlow hhigh
  unfold saturate
  omega

omit [FloorRing K] in
/-- The position is saturated in degrees first, which leaves nothing to the 16 bits. -/
theorem position_in_range (position_deg : K) :
    ((-32000 : Int) : K) ≤
        max (-MAX_STATUS_POSITION) (min MAX_STATUS_POSITION position_deg) * 10.0 ∧
      max (-MAX_STATUS_POSITION) (min MAX_STATUS_POSITION position_deg) * 10.0 ≤
        ((32000 : Int) : K) := by
  have hlow : -MAX_STATUS_POSITION ≤
      max (-MAX_STATUS_POSITION) (min MAX_STATUS_POSITION position_deg) := le_max_left _ _
  have hhigh : max (-MAX_STATUS_POSITION) (min MAX_STATUS_POSITION position_deg) ≤
      MAX_STATUS_POSITION := by
    refine max_le ?_ (min_le_left _ _)
    unfold MAX_STATUS_POSITION
    norm_num
  generalize max (-MAX_STATUS_POSITION) (min MAX_STATUS_POSITION position_deg) = p at hlow hhigh ⊢
  unfold MAX_STATUS_POSITION at hlow hhigh
  norm_num at hlow hhigh ⊢
  constructor <;> linarith

omit [LinearOrder K] [FloorRing K] [IsStrictOrderedRing K] in
/-- What the decoder makes of a frame that was packed from fields in their ranges. -/
theorem decode_packed {can_id : Nat} (hid : can_id < 256) {position speed current temperature : Int}
    (hposition : -32768 ≤ position ∧ position ≤ 32767) (hspeed : -32768 ≤ speed ∧ speed ≤ 32767)
    (hcurrent : -32768 ≤ current ∧ current ≤ 32767)
    (htemperature : -128 ≤ temperature ∧ temperature ≤ 127) (error : UInt8) :
    decode_status ⟨status_id can_id, int16_bytes position ++ int16_bytes speed ++
      int16_bytes current ++ [low_byte temperature, error]⟩ =
      some (⟨can_id, position * 0.1, speed * 10.0, current * 0.01, temperature, error⟩ :
        Status K) := by
  obtain ⟨p1, p0, hp, hposition⟩ := int16_int16_bytes hposition.1 hposition.2
  obtain ⟨s1, s0, hs, hspeed⟩ := int16_int16_bytes hspeed.1 hspeed.2
  obtain ⟨c1, c0, hc, hcurrent⟩ := int16_int16_bytes hcurrent.1 hcurrent.2
  have htemperature := int8_low_byte htemperature.1 htemperature.2
  rw [hp, hs, hc]
  change (if status_id can_id >>> 8 ≠ STATUS then none else some _) = _
  rw [if_neg (not_not.mpr (status_id_shift hid)), status_id_low hid, hposition, hspeed, hcurrent,
    htemperature]

/-- The decoder reads back what the emulated motor reports. -/
theorem decode_encode_status {can_id : Nat} (hid : can_id < 256)
    (position_deg speed_erpm current_a temperature_c : K) (error : Int) :
    ∃ status, decode_status (encode_status can_id position_deg speed_erpm current_a temperature_c
      error) = some status ∧
      Reports status can_id position_deg speed_erpm current_a temperature_c error := by
  refine ⟨_, decode_packed hid (saturate_bounds _ (by omega)) (saturate_bounds _ (by omega))
    (saturate_bounds _ (by omega)) (saturate_bounds _ (by omega)) _, rfl, ?_, ?_, ?_, ?_, rfl⟩
  · dsimp only
    rw [saturate_inactive (by norm_num) (by norm_num) (position_in_range position_deg)]
    unfold nearest saturated MAX_STATUS_POSITION
    rw [div_eq_mul_inv]
    norm_num
  · have h := saturate_mul_unit (by norm_num : (0 : K) < 10) (-32768) 32767 speed_erpm
    norm_num at h ⊢
    exact h
  · have h := saturate_mul_unit (by norm_num : (0 : K) < 0.01) (-32768) 32767 current_a
    have hscale : current_a * 100.0 = current_a / 0.01 := by
      rw [div_eq_mul_inv]
      norm_num
    dsimp only
    rw [hscale, h]
    norm_num
  · have h := saturate_mul_unit (zero_lt_one : (0 : K) < 1) (-128) 127 temperature_c
    rw [div_one, mul_one] at h
    norm_num at h ⊢
    exact h

/-- The position field of a status payload. -/
def raw_position : List UInt8 → Int
  | high :: low :: _ => int16 high low
  | _ => 0

omit [IsStrictOrderedRing K] [LinearOrder K] [FloorRing K] in
theorem decode_status_bytes {id : Nat} (hid : id >>> 8 = STATUS)
    (p1 p0 s1 s0 c1 c0 temperature error : UInt8) (rest : List UInt8) :
    decode_status ⟨id, p1 :: p0 :: s1 :: s0 :: c1 :: c0 :: temperature :: error :: rest⟩ =
      some (⟨id &&& 0xFF, int16 p1 p0 * 0.1, int16 s1 s0 * 10.0, int16 c1 c0 * 0.01,
        int8 temperature, error⟩ : Status K) := by
  exact if_neg (not_not.mpr hid)

/-- A field that was read from a frame is written back as it was. -/
theorem saturate_int16 (high low : UInt8) {x : K} (hx : x = int16 high low) :
    int16_bytes (saturate x (-32768) 32767) = [high, low] := by
  obtain ⟨hlow, hhigh⟩ := int16_range high low
  have hvalue : ((int16 high low : Int) : K) ≤ x ∧ x ≤ ((int16 high low : Int) : K) :=
    ⟨hx.ge, hx.le⟩
  rw [saturate_inactive hlow hhigh hvalue, hx, round_even_intCast, int16_bytes_int16]

omit [Field K] [LinearOrder K] [FloorRing K] [IsStrictOrderedRing K] in
theorem eight_bytes {data : List UInt8} (h : data.length = 8) :
    ∃ p1 p0 s1 s0 c1 c0 temperature error,
      data = [p1, p0, s1, s0, c1, c0, temperature, error] := by
  rcases data with _ | ⟨p1, _ | ⟨p0, _ | ⟨s1, _ | ⟨s0, _ | ⟨c1, _ | ⟨c0, _ | ⟨temperature,
    _ | ⟨error, _ | ⟨more, rest⟩⟩⟩⟩⟩⟩⟩⟩⟩
  case cons.cons.cons.cons.cons.cons.cons.cons.nil =>
    exact ⟨p1, p0, s1, s0, c1, c0, temperature, error, rfl⟩
  all_goals simp at h

/-- Reading a payload and encoding it again gives the payload back, as long as its position
is one that the emulated motor sends. -/
theorem encode_decode_status {frame : CanFrame} (hid : frame.id >>> 8 = STATUS)
    (hlen : frame.data.length = 8) (hraw : -32000 ≤ raw_position frame.data)
    (hraw' : raw_position frame.data ≤ 32000) :
    ∃ status : Status K, decode_status frame = some status ∧
      encode_status status.can_id status.position_deg status.speed_erpm status.current_a
        status.temperature_c status.error.toNat = frame := by
  obtain ⟨id, data⟩ := frame
  obtain ⟨p1, p0, s1, s0, c1, c0, temperature, error, rfl⟩ := eight_bytes hlen
  refine ⟨_, decode_status_bytes hid p1 p0 s1 s0 c1 c0 temperature error [], ?_⟩
  change -32000 ≤ int16 p1 p0 at hraw
  change int16 p1 p0 ≤ 32000 at hraw'
  have hlow : (-32000 : K) ≤ int16 p1 p0 := by exact_mod_cast hraw
  have hhigh : (int16 p1 p0 : K) ≤ 32000 := by exact_mod_cast hraw'
  have hposition : max (-MAX_STATUS_POSITION) (min MAX_STATUS_POSITION
      ((int16 p1 p0 : K) * 0.1)) * 10.0 = int16 p1 p0 := by
    unfold MAX_STATUS_POSITION
    rw [min_eq_right (by norm_num; linarith), max_eq_right (by norm_num; linarith), mul_assoc]
    norm_num
  have hspeed : (int16 s1 s0 : K) * 10.0 / 10.0 = int16 s1 s0 := by norm_num
  have hcurrent : (int16 c1 c0 : K) * 0.01 * 100.0 = int16 c1 c0 := by
    rw [mul_assoc]
    norm_num
  have htemperature : low_byte (saturate (int8 temperature : K) (-128) 127) = temperature := by
    have hrange : -128 ≤ int8 temperature ∧ int8 temperature ≤ 127 := by
      unfold int8 Int.bmod
      dsimp only
      split <;> omega
    rw [saturate_inactive hrange.1 hrange.2 ⟨le_rfl, le_rfl⟩, round_even_intCast,
      low_byte_int8]
  unfold encode_status
  dsimp only
  rw [saturate_int16 p1 p0 hposition, saturate_int16 s1 s0 hspeed, saturate_int16 c1 c0 hcurrent,
    htemperature, low_byte_toNat]
  exact congrArg₂ CanFrame.mk (status_id_of_shift hid) rfl

end Encoder

open Safe

def CAN_EFF_MASK : Nat := 0x1FFFFFFF

/-- The frame as the socket of the Python tools delivers it. -/
def can_frame (frame : RxFrame) : CanFrame :=
  ⟨frame.can_id &&& CAN_EFF_MASK, (List.ofFn frame.data).take frame.can_dlc⟩

/-- The identifier of the frame starts with the status code. -/
def IsStatus (frame : RxFrame) : Prop := (can_frame frame).id >>> 8 = STATUS

section Plugin
variable {K : Type} [Field K]

/-- What `decode_status` makes of a frame of eight bytes. -/
def reading (frame : RxFrame) : Status K :=
  let byte (k : Nat) : UInt8 := (List.ofFn frame.data).getD k 0
  { can_id := (can_frame frame).id &&& 0xFF
    position_deg := int16 (byte 0) (byte 1) * 0.1
    speed_erpm := int16 (byte 2) (byte 3) * 10.0
    current_a := int16 (byte 4) (byte 5) * 0.01
    temperature_c := int8 (byte 6)
    error := byte 7 }

/-- The status frames of a joint, as `decode_status` reads them. -/
def decoded_for (p : JointParams K) (frames : List RxFrame) : List (Status K) :=
  frames.filterMap fun frame =>
    if frame.complete then
      (decode_status (can_frame frame)).filter fun status => status.can_id = p.can_id
    else none

/-- The last fault among the frames of a batch, none if no frame has one. -/
def standing_fault (statuses : List (Status K)) : UInt8 :=
  ((statuses.reverse.find? fun status => status.error != 0).map Status.error).getD 0

/-- The plugin reads from the raw fields what the decoder does. -/
structure Stores (joint : Joint K) (status : Status K) : Prop where
  position : joint.raw_position * kDegPerCount = status.position_deg
  current : joint.raw_current * 0.01 = status.current_a
  temperature : joint.temperature = status.temperature_c

theorem ofFn_data (data : Fin 8 → UInt8) :
    List.ofFn data = [data 0, data 1, data 2, data 3, data 4, data 5, data 6, data 7] := rfl

theorem decode_can_frame {frame : RxFrame} (hid : 8 ≤ frame.can_dlc → IsStatus frame) :
    (decode_status (can_frame frame) : Option (Status K)) =
      if frame.can_dlc < 8 then none else some (reading frame) := by
  by_cases hshort : frame.can_dlc < 8
  · rw [if_pos hshort]
    have hlen : (can_frame frame).data.length < 8 := by
      unfold can_frame
      dsimp only
      rw [List.length_take, List.length_ofFn]
      omega
    unfold decode_status
    split
    · rename_i hdata
      rw [hdata] at hlen
      simp only [List.length_cons] at hlen
      omega
    · rfl
  · rw [if_neg hshort]
    have hdata : (can_frame frame).data = List.ofFn frame.data :=
      List.take_of_length_le (by rw [List.length_ofFn]; omega)
    have hframe : can_frame frame = ⟨(can_frame frame).id, List.ofFn frame.data⟩ := by rw [← hdata]
    rw [hframe, ofFn_data]
    exact decode_status_bytes (hid (by omega)) _ _ _ _ _ _ _ _ _

theorem can_frame_low (frame : RxFrame) : (can_frame frame).id &&& 0xFF = frame.can_id &&& 0xFF := by
  unfold can_frame CAN_EFF_MASK
  dsimp only
  have hmask : 0x1FFFFFFF &&& 0xFF = 0xFF := by decide
  rw [Nat.and_assoc, hmask]

theorem of_iff {frame : RxFrame} (p : JointParams K) :
    frame.of p = true ↔ frame.complete = true ∧ ¬ frame.can_dlc < 8 ∧
      (reading frame : Status K).can_id = p.can_id := by
  unfold RxFrame.of reading
  rw [can_frame_low, Bool.and_eq_true, Bool.and_eq_true, beq_iff_eq, Bool.not_eq_true',
    decide_eq_false_iff_not, and_assoc, eq_comm (a := p.can_id)]

/-- `drain_status` and `decode_status` take the same frames for a joint's. -/
theorem of_iff_decodes {frame : RxFrame} (hcomplete : frame.complete = true)
    (hid : 8 ≤ frame.can_dlc → IsStatus frame) (p : JointParams K) :
    frame.of p = true ↔ ∃ status : Status K,
      decode_status (can_frame frame) = some status ∧ status.can_id = p.can_id := by
  rw [of_iff, decode_can_frame hid]
  by_cases hshort : frame.can_dlc < 8
  · rw [if_pos hshort]
    refine iff_of_false (fun h => h.2.1 hshort) ?_
    rintro ⟨_, ⟨⟩, -⟩
  · rw [if_neg hshort]
    constructor
    · exact fun h => ⟨_, rfl, h.2.2⟩
    · rintro ⟨_, ⟨⟩, h⟩
      exact ⟨hcomplete, hshort, h⟩

/-- The frames of a batch that are long enough for a status are status frames. -/
def StatusBatch (frames : List RxFrame) : Prop :=
  ∀ frame ∈ frames, frame.complete = true → 8 ≤ frame.can_dlc → IsStatus frame

/-- The joint's frames of a batch, read in the order in which they arrive. -/
theorem decoded_for_eq (p : JointParams K) (t : Nat) {frames : List RxFrame}
    (hid : StatusBatch frames) :
    decoded_for p frames = (frames_of p ⟨t, frames⟩).map reading := by
  unfold decoded_for frames_of
  dsimp only
  induction frames with
  | nil => rfl
  | cons frame frames ih =>
    have hrest := ih fun f hf => hid f (List.mem_cons_of_mem _ hf)
    have hframe : (if frame.complete then
        (decode_status (can_frame frame)).filter fun status => status.can_id = p.can_id
        else none) = if frame.of p then some (reading frame : Status K) else none := by
      by_cases hcomplete : frame.complete = true
      · rw [if_pos hcomplete, decode_can_frame (hid frame List.mem_cons_self hcomplete)]
        by_cases hshort : frame.can_dlc < 8
        · rw [if_pos hshort, if_neg fun h => ((of_iff p).mp h).2.1 hshort]
          rfl
        · rw [if_neg hshort, Option.filter_some]
          simp only [of_iff, hcomplete, hshort, decide_eq_true_eq, true_and, not_false_eq_true]
      · rw [if_neg hcomplete, if_neg fun h => hcomplete ((of_iff p).mp h).1]
    rw [List.filterMap_cons, hframe]
    by_cases hof : frame.of p = true
    · rw [if_pos hof, List.filter_cons, if_pos hof, List.map_cons]
      exact congrArg _ hrest
    · rw [if_neg hof, List.filter_cons, if_neg hof]
      exact hrest

/-- A joint after the frames of a batch that are its own. -/
theorem hear_stores (t : Nat) (j : Joint K) (frames : List RxFrame) (last : RxFrame) :
    Stores ((frames ++ [last]).foldl (fun j frame => hear t frame j) (j, false)).1
      (reading last) := by
  rw [List.foldl_append, List.foldl_cons, List.foldl_nil]
  have hbyte (k : Fin 8) : (List.ofFn last.data).getD k.val 0 = last.data k := by
    rw [List.getD_eq_getElem _ _ (by simp), List.getElem_ofFn]
  constructor
  · simp only [hear, reading, kDegPerCount, ← hbyte, Fin.val_zero, Fin.val_one]
  · simp only [hear, reading, ← hbyte]
    rfl
  · simp only [hear, reading, ← hbyte]
    rfl

omit [Field K] in
theorem standing_fault_snoc (statuses : List (Status K)) (status : Status K) :
    standing_fault (statuses ++ [status]) =
      if status.error ≠ 0 then status.error else standing_fault statuses := by
  unfold standing_fault
  rw [List.reverse_append, List.reverse_singleton, List.singleton_append, List.find?_cons]
  by_cases hfault : status.error ≠ 0
  · rw [if_pos hfault, bne_iff_ne.mpr hfault]
    rfl
  · rw [if_neg hfault, bne_eq_false_iff_eq.mpr (not_not.mp hfault)]

theorem hear_standing_fault (t : Nat) (j : Joint K) (frames : List RxFrame) :
    (frames.foldl (fun j frame => hear t frame j) (j, false)).2 = !frames.isEmpty ∧
      (frames ≠ [] → (frames.foldl (fun j frame => hear t frame j) (j, false)).1.fault =
        standing_fault (frames.map (reading (K := K)))) := by
  induction frames using List.reverseRecOn with
  | nil => exact ⟨rfl, fun h => absurd rfl h⟩
  | append_singleton frames last ih =>
    obtain ⟨hflag, hfault⟩ := ih
    rw [List.foldl_append, List.map_append, List.map_singleton, standing_fault_snoc]
    refine ⟨by simp [hear], fun _ => ?_⟩
    change (if last.data 7 ≠ 0 ∨ _ = false then last.data 7 else _) =
      if last.data 7 ≠ 0 then last.data 7 else _
    by_cases hlast : last.data 7 = 0
    · rw [if_neg (not_not.mpr hlast)]
      cases frames with
      | nil =>
        rw [if_pos (.inr rfl), hlast]
        rfl
      | cons first rest =>
        rw [hflag, if_neg (by simp [hlast])]
        exact hfault (List.cons_ne_nil _ _)
    · rw [if_pos hlast, if_pos (.inl hlast)]

variable [LinearOrder K] {n : Nat} (c : Component K n) (env : Env)

/-- What a drain of status frames leaves of a joint. -/
theorem drain_stores {s : SafeSystem K n} (hsocket : s.socket = true)
    (hid : StatusBatch (env.batch s.drains).frames) (i : Fin n) :
    (decoded_for (c.joint i) (env.batch s.drains).frames = [] →
      (drain_status c env s).2.joints i = s.joints i) ∧
    ∀ earlier status, decoded_for (c.joint i) (env.batch s.drains).frames = earlier ++ [status] →
      Stores ((drain_status c env s).2.joints i) status ∧
      ((drain_status c env s).2.joints i).fault = standing_fault (earlier ++ [status]) := by
  have hjoint : (drain_status c env s).2.joints i =
      ((frames_of (c.joint i) ⟨(now env s).1, (env.batch s.drains).frames⟩).foldl
        (fun j frame => hear (now env s).1 frame j) (s.joints i, false)).1 := by
    have hopen : ¬ s.socket = false := by
      rw [hsocket]
      decide
    unfold drain_status
    rw [if_neg hopen]
    exact congrArg Prod.fst (absorb_joint c (now env s).1 _ _ i)
  rw [hjoint, decoded_for_eq (c.joint i) (now env s).1 hid]
  generalize frames_of (c.joint i) ⟨(now env s).1, (env.batch s.drains).frames⟩ = frames
  constructor
  · intro hnone
    rw [List.map_eq_nil_iff.mp hnone]
    rfl
  · intro earlier status hlast
    obtain ⟨front, back, rfl, hfront, hback⟩ := List.map_eq_append_iff.mp hlast
    obtain ⟨last, rest, rfl, rfl, hrest⟩ := List.map_eq_cons_iff.mp hback
    obtain rfl := List.map_eq_nil_iff.mp hrest
    refine ⟨hear_stores _ _ _ _, ?_⟩
    rw [← hlast]
    exact (hear_standing_fault _ _ _).2 (by simp)

variable [IsStrictOrderedRing K] [FloorRing K]

/-- What a status reports is at most half a unit away from a quantity within its range. -/
theorem Reports.within {status : Status K} {can_id : Nat}
    {position_deg speed_erpm current_a temperature_c : K} {error : Int}
    (h : Reports status can_id position_deg speed_erpm current_a temperature_c error) :
    (-3200 ≤ position_deg ∧ position_deg ≤ 3200 →
      |status.position_deg - position_deg| ≤ 0.1 / 2) ∧
    (-327680 ≤ speed_erpm ∧ speed_erpm ≤ 327670 → |status.speed_erpm - speed_erpm| ≤ 10 / 2) ∧
    (-327.68 ≤ current_a ∧ current_a ≤ 327.67 → |status.current_a - current_a| ≤ 0.01 / 2) ∧
    (-128 ≤ temperature_c ∧ temperature_c ≤ 127 →
      |(status.temperature_c : K) - temperature_c| ≤ 1 / 2) := by
  refine ⟨?_, ?_, ?_, ?_⟩
  · rintro ⟨hlow, hhigh⟩
    rw [h.position_deg, saturated_within hlow hhigh]
    exact nearest_within (by norm_num) _
  · rintro ⟨hlow, hhigh⟩
    rw [h.speed_erpm, saturated_within hlow hhigh]
    exact nearest_within (by norm_num) _
  · rintro ⟨hlow, hhigh⟩
    rw [h.current_a, saturated_within hlow hhigh]
    exact nearest_within (by norm_num) _
  · rintro ⟨hlow, hhigh⟩
    rw [h.temperature_c, saturated_within hlow hhigh]
    exact nearest_within one_pos _

/-- The decoder reads back what the emulated motor encodes, in units and ranges; encoding a
decoded payload gives it back; and the plugin takes the frames that the decoder takes for a
joint, and stores what it reads from the last of them, with the last fault of the batch. -/
theorem status_codec_consistent :
    (∀ can_id < 256, ∀ (position_deg speed_erpm current_a temperature_c : K) (error : Int),
      ∃ status, decode_status (encode_status can_id position_deg speed_erpm current_a
        temperature_c error) = some status ∧
        Reports status can_id position_deg speed_erpm current_a temperature_c error ∧
        (-3200 ≤ position_deg ∧ position_deg ≤ 3200 →
          |status.position_deg - position_deg| ≤ 0.1 / 2) ∧
        (-327680 ≤ speed_erpm ∧ speed_erpm ≤ 327670 → |status.speed_erpm - speed_erpm| ≤ 10 / 2) ∧
        (-327.68 ≤ current_a ∧ current_a ≤ 327.67 → |status.current_a - current_a| ≤ 0.01 / 2) ∧
        (-128 ≤ temperature_c ∧ temperature_c ≤ 127 →
          |(status.temperature_c : K) - temperature_c| ≤ 1 / 2)) ∧
    (∀ frame : CanFrame, frame.id >>> 8 = STATUS → frame.data.length = 8 →
      -32000 ≤ raw_position frame.data → raw_position frame.data ≤ 32000 →
      ∃ status : Status K, decode_status frame = some status ∧
        encode_status status.can_id status.position_deg status.speed_erpm status.current_a
          status.temperature_c status.error.toNat = frame) ∧
    (∀ (frame : RxFrame) (p : JointParams K), frame.complete = true →
      (8 ≤ frame.can_dlc → IsStatus frame) →
      (frame.of p = true ↔ ∃ status : Status K,
        decode_status (can_frame frame) = some status ∧ status.can_id = p.can_id)) ∧
    (∀ (n : Nat) (c : Component K n) (env : Env) (s : SafeSystem K n), s.socket = true →
      StatusBatch (env.batch s.drains).frames → ∀ i,
      (decoded_for (c.joint i) (env.batch s.drains).frames = [] →
        (drain_status c env s).2.joints i = s.joints i) ∧
      ∀ earlier status,
        decoded_for (c.joint i) (env.batch s.drains).frames = earlier ++ [status] →
        Stores ((drain_status c env s).2.joints i) status ∧
        ((drain_status c env s).2.joints i).fault = standing_fault (earlier ++ [status])) := by
  refine ⟨fun can_id hid position_deg speed_erpm current_a temperature_c error => ?_,
    fun frame hid hlen hlow hhigh => encode_decode_status hid hlen hlow hhigh,
    fun frame p hcomplete hid => of_iff_decodes hcomplete hid p,
    fun n c env s hsocket hid i => drain_stores c env hsocket hid i⟩
  obtain ⟨status, hdecode, hreports⟩ :=
    decode_encode_status hid position_deg speed_erpm current_a temperature_c error
  exact ⟨status, hdecode, hreports, hreports.within⟩

end Plugin

section Examples

/-- A status frame of motor 1 with a fault byte. -/
def fault_frame (fault : UInt8) : RxFrame where
  complete := true
  can_id := 0x80002901
  can_dlc := 8
  data k := if k.val = 7 then fault else 0

/-- The first drain finds a frame with fault 3 and then one without a fault. -/
def cleared : Env where
  clock := SteadyClock.ticking 1 one_pos
  written _ := true
  batch _ := ⟨[fault_frame 3, fault_frame 0], false⟩

theorem cleared_status : StatusBatch (cleared.batch 0).frames := by
  intro frame hframe _ _
  rcases List.mem_pair.mp hframe with rfl | rfl
  · show (_ : Nat) = _
    decide +kernel
  · show (_ : Nat) = _
    decide +kernel

/-- The status of the emulator's test, and what the plugin makes of the batch. -/
theorem codec_and_cleared :
    (∃ status, decode_status (encode_status 12 (-12.34 : ℚ) 2500 (-1.5) 31 7) = some status ∧
      Reports status 12 (-12.34 : ℚ) 2500 (-1.5) 31 7) ∧
    ∀ earlier status, decoded_for (gizmo.joint 0) (cleared.batch 0).frames =
        earlier ++ [status] →
      ((drain_status gizmo cleared { socket := true }).2.joints 0).fault =
        standing_fault (earlier ++ [status]) := by
  obtain ⟨hcodec, -, -, hplugin⟩ := status_codec_consistent (K := ℚ)
  constructor
  · obtain ⟨status, hdecode, hreports, -⟩ := hcodec 12 (by decide) (-12.34) 2500 (-1.5) 31 7
    exact ⟨status, hdecode, hreports⟩
  · intro earlier status hlast
    exact ((hplugin 1 gizmo cleared { socket := true } rfl cleared_status 0).2 earlier status
      hlast).2

/-- The plugin keeps the fault of an earlier frame of the batch. -/
theorem cleared_fault_stands :
    ¬ ∀ (c : Component ℚ 1) (env : Env) (s : SafeSystem ℚ 1), s.socket = true →
      StatusBatch (env.batch s.drains).frames → ∀ i error,
      (decoded_for (c.joint i) (env.batch s.drains).frames).getLast?.map Status.error =
        some error → ((drain_status c env s).2.joints i).fault = error := by
  intro h
  have hfault := h gizmo cleared { socket := true } rfl cleared_status 0 0 (by decide +kernel)
  revert hfault
  decide +kernel

end Examples

end IotRobot.Can
