import IotRobot.Imu.Configured
import Mathlib.Data.Nat.Bitwise

/-!
# What the driver reads

With the configuration of the driver, or powered down, the chip gives the driver exactly what its
sensors offer: a reading is the raw value times the sensitivity of the range that the registers of
the chip select.
-/

namespace IotRobot.Imu

open Lib Prog

set_option autoImplicit false

/-- Two bytes, little endian, are the value again. -/
theorem int16_bytes (v : BitVec 16) : int16 (v.toNat % 256) (v.toNat / 256) = v.toInt := by
  have hlt := v.isLt
  have hvalue : v.toNat % 256 ||| (v.toNat / 256) <<< 8 = v.toNat := by
    rw [Nat.or_comm, ← Nat.shiftLeft_add_eq_or_of_lt (by omega : v.toNat % 256 < 2 ^ 8), Nat.shiftLeft_eq]
    omega
  have hsign : v.toNat &&& 0x8000 = if v.toNat < 0x8000 then 0 else 0x8000 := by
    rw [show (0x8000 : Nat) = 2 ^ 15 from rfl, Nat.and_two_pow]
    have hbit : v.toNat.testBit 15 = decide (2 ^ 15 ≤ v.toNat) := by
      rw [Nat.testBit_eq_decide_div_mod_eq, decide_eq_decide]
      omega
    rw [hbit]
    by_cases h : v.toNat < 2 ^ 15
    · rw [if_pos h, decide_eq_false (by omega), Bool.toNat_false, Nat.zero_mul]
    · rw [if_neg h, decide_eq_true (by omega), Bool.toNat_true, Nat.one_mul]
  unfold int16
  dsimp only
  rw [hvalue, hsign, BitVec.toInt_eq_toNat_cond]
  by_cases h : v.toNat < 0x8000
  · rw [if_pos h, if_neg (by decide), if_pos (by omega)]
  · rw [if_neg h, if_pos (by decide), if_neg (by omega)]
    rfl

variable {K : Type} [Field K]

theorem vector_bytes (v : Vector16) (scale : K) :
    vector ((List.range 6).map (Sensor.byte_of v)) scale = fun i => ((v i).toInt : K) * scale := by
  funext i
  have hlow : ((List.range 6).map (Sensor.byte_of v)).getD (2 * i.val) 0 = (v i).toNat % 256 := by
    match i with
    | 0 | 1 | 2 => rfl
  have hhigh : ((List.range 6).map (Sensor.byte_of v)).getD (2 * i.val + 1) 0 = (v i).toNat / 256 := by
    match i with
    | 0 | 1 | 2 => rfl
  unfold vector
  rw [hlow, hhigh, int16_bytes]

/-- The sensitivity of the range with these bits, 0 if there is none. -/
def sensitivity {α : Type} (ranges : List α) (table : α → Nat × K) (bits : Nat) : K :=
  ((ranges.map table).find? fun range => range.1 = bits).elim 0 Prod.snd

/-- m/s² per LSB, by the bits FS_XL of CTRL_REG6_XL. -/
def Sensor.accel_lsb (s : Sensor) : K :=
  sensitivity [AccelRange.g2, .g4, .g8, .g16] ACCEL_RANGES (s.regs .ag CTRL_REG6_XL >>> 3 &&& 0b11) *
    1e-3 * STANDARD_GRAVITY

/-- rad/s per LSB, by the bits FS_G of CTRL_REG1_G. -/
def Sensor.gyro_lsb (degree : K) (s : Sensor) : K :=
  sensitivity [GyroRange.dps245, .dps500, .dps2000] GYRO_RANGES (s.regs .ag CTRL_REG1_G >>> 3 &&& 0b11) *
    1e-3 * degree

/-- Tesla per LSB, by the bits FS of CTRL_REG2_M. -/
def Sensor.mag_lsb (s : Sensor) : K :=
  sensitivity [MagRange.gauss4, .gauss8, .gauss12, .gauss16] MAG_RANGES (s.regs .mag CTRL_REG2_M >>> 5 &&& 0b11) *
    1e-3 * TESLA_PER_GAUSS

variable {st : Settings} {s : Sensor}

theorem ag_value (h : Configured K st s) (register : Nat) (hwritable : Chip.ag.writable register) :
    s.regs .ag register = config K st .ag register := h.1.2 register hwritable

theorem mag_value (h : Configured K st s) (register : Nat) (hwritable : Chip.mag.writable register) :
    s.regs .mag register = config K st .mag register := h.2.2 register hwritable

/-- The bits of a range beside those of a data rate. -/
theorem range_bits : ∀ odr < 8, ∀ range < 4, (odr <<< 5 ||| range <<< 3) >>> 3 &&& 0b11 = range := by
  decide

theorem rate_bits : ∀ odr < 8, ∀ range < 4, (odr <<< 5 ||| range <<< 3) >>> 5 = odr := by
  decide

theorem field_bits : ∀ range < 4, range <<< 5 >>> 5 &&& 0b11 = range := by
  decide

theorem odr_bits_lt (odr : Odr) : ODR_BITS odr < 8 ∧ ODR_BITS odr ≠ 0 := by
  cases odr <;> decide

theorem accel_lsb_configured (h : Configured K st s) : (s.accel_lsb : K) = accel_scale st := by
  unfold Sensor.accel_lsb accel_scale
  rw [ag_value h CTRL_REG6_XL (by decide)]
  change sensitivity _ _ ((ODR_BITS st.odr <<< 5 ||| (ACCEL_RANGES (K := K) st.accel_range).1 <<< 3) >>> 3 &&& _) *
    _ * _ = _
  rw [range_bits _ (odr_bits_lt st.odr).1]
  · cases st.accel_range <;> simp [sensitivity, ACCEL_RANGES]
  · cases st.accel_range <;> simp [ACCEL_RANGES]

theorem gyro_lsb_configured (degree : K) (h : Configured K st s) : s.gyro_lsb degree = gyro_scale degree st := by
  unfold Sensor.gyro_lsb gyro_scale
  rw [ag_value h CTRL_REG1_G (by decide)]
  change sensitivity _ _ ((ODR_BITS st.odr <<< 5 ||| (GYRO_RANGES (K := K) st.gyro_range).1 <<< 3) >>> 3 &&& _) *
    _ * _ = _
  rw [range_bits _ (odr_bits_lt st.odr).1]
  · cases st.gyro_range <;> simp [sensitivity, GYRO_RANGES]
  · cases st.gyro_range <;> simp [GYRO_RANGES]

theorem mag_lsb_configured (h : Configured K st s) : (s.mag_lsb : K) = mag_scale st := by
  unfold Sensor.mag_lsb mag_scale
  rw [mag_value h CTRL_REG2_M (by decide)]
  change sensitivity _ _ ((MAG_RANGES (K := K) st.mag_range).1 <<< 5 >>> 5 &&& _) * _ * _ = _
  rw [field_bits]
  · cases st.mag_range <;> simp [sensitivity, MAG_RANGES]
  · cases st.mag_range <;> simp [MAG_RANGES]

/-- A configured chip measures, and its bursts are of one sample and go through the registers. -/
theorem configured_modes (h : Configured K st s) :
    s.powered .ag = true ∧ s.powered .mag = true ∧ s.blocks .ag = true ∧ s.blocks .mag = true ∧
      ∀ register, s.increments .ag register = true := by
  have hcontrol : s.regs .ag CTRL_REG8 = 0x44 := ag_value h CTRL_REG8 (by decide)
  have hmode : s.regs .mag CTRL_REG3_M = 0 := mag_value h CTRL_REG3_M (by decide)
  have hblocks : s.regs .mag CTRL_REG5_M = 0x40 := mag_value h CTRL_REG5_M (by decide)
  have hrate : s.regs .ag CTRL_REG1_G >>> 5 = ODR_BITS st.odr := by
    rw [ag_value h CTRL_REG1_G (by decide)]
    change (ODR_BITS st.odr <<< 5 ||| (GYRO_RANGES (K := K) st.gyro_range).1 <<< 3) >>> 5 = _
    rw [rate_bits _ (odr_bits_lt st.odr).1]
    cases st.gyro_range <;> simp [GYRO_RANGES]
  unfold Sensor.powered Sensor.blocks Sensor.increments
  simp only [hcontrol, hmode, hblocks, hrate]
  exact ⟨decide_eq_true (odr_bits_lt st.odr).2, rfl, rfl, rfl, fun _ => rfl⟩

/-- Neither device measures. -/
def Off (s : Sensor) : Prop := s.powered .ag = false ∧ s.powered .mag = false

/-- The acceleration and angular rate that the sensors offer from the next operation on, in the units and
axes of the driver, at the sensitivities that the chip is set to. -/
def Sensor.sample (w : Wire) (degree : K) (s : Sensor) : Option (Axes K × Axes K) :=
  if (w.offers s.ops 0).new_ag && s.powered .ag then
    some (imu_link fun i => (((w.offers (s.ops + 1) 0).accel i).toInt : K) * s.accel_lsb,
      imu_link fun i => (((w.offers s.ops 0).gyro i).toInt : K) * s.gyro_lsb degree)
  else none

/-- The magnetic field that the sensor offers at the next operation. -/
def Sensor.field (w : Wire) (s : Sensor) : Option (Axes K) :=
  if (w.offers s.ops 0).new_mag && s.powered .mag then
    some fun i => (((w.offers s.ops 0).mag i).toInt : K) * s.mag_lsb
  else none

/-- The state after `n` operations that only read. -/
def Sensor.after (n : Nat) (s : Sensor) : Sensor := { s with ops := s.ops + n }

/-- The bytes that the next operation finds. -/
def Sensor.burst (w : Wire) (chip : Chip) (register length : Nat) (s : Sensor) : List Nat :=
  let first := if chip = .mag then register &&& 0x7F else register
  (List.range length).map fun i =>
    s.look chip (if s.increments chip register then first + i else first)
      (w.offers s.ops (if s.blocks chip then 0 else i))

variable {w : Wire}

theorem block_bind {α : Type} (chip : Chip) (register length : Nat) (f : List Nat → Prog Sensor Fault α)
    (s : Sensor) :
    (read_i2c_block_data w chip register length >>= f) s =
      match w.fails s.ops with
      | some strerror => (.raised (.os_error strerror), s.after 1)
      | none => f (s.burst w chip register length) (s.after 1) := by
  change Prog.bind _ f s = _
  unfold Prog.bind read_i2c_block_data operate
  cases w.fails s.ops <;> rfl

theorem burst_ag (h : Configured K st s) :
    (s.burst w .ag STATUS_REG 7).tail = (List.range 6).map (Sensor.byte_of (w.offers s.ops 0).gyro) ∧
      s.burst w .ag OUT_X_L_XL 6 = (List.range 6).map (Sensor.byte_of (w.offers s.ops 0).accel) := by
  obtain ⟨-, -, hblocks, -, hincrements⟩ := configured_modes h
  unfold Sensor.burst
  simp only [hincrements, hblocks, if_true]
  exact ⟨rfl, rfl⟩

theorem burst_mag (h : Configured K st s) :
    (s.burst w .mag (STATUS_REG_M ||| MAG_AUTO_INCREMENT) 7).tail =
      (List.range 6).map (Sensor.byte_of (w.offers s.ops 0).mag) := by
  obtain ⟨-, -, -, hblocks, -⟩ := configured_modes h
  have hincrements : s.increments .mag (STATUS_REG_M ||| MAG_AUTO_INCREMENT) = true := by
    change decide ((STATUS_REG_M ||| MAG_AUTO_INCREMENT) &&& MAG_AUTO_INCREMENT ≠ 0) = true
    decide
  have hfirst : (STATUS_REG_M ||| MAG_AUTO_INCREMENT) &&& 0x7F = STATUS_REG_M := by decide
  unfold Sensor.burst
  simp only [hblocks, hincrements, hfirst, if_true]
  rfl

theorem burst_status (s : Sensor) :
    (s.burst w .ag STATUS_REG 7).getD 0 0 &&& STATUS_GDA =
      if (w.offers s.ops 0).new_ag && s.powered .ag then STATUS_GDA else 0 := by
  have hfirst : (s.burst w .ag STATUS_REG 7).getD 0 0 =
      if (w.offers s.ops 0).new_ag && s.powered .ag then STATUS_GDA ||| STATUS_XLDA else 0 := by
    unfold Sensor.burst
    cases s.increments .ag STATUS_REG <;> cases s.blocks .ag <;> rfl
  rw [hfirst]
  split <;> rfl

theorem burst_status_mag (s : Sensor) :
    (s.burst w .mag (STATUS_REG_M ||| MAG_AUTO_INCREMENT) 7).getD 0 0 &&& STATUS_M_ZYXDA =
      if (w.offers s.ops 0).new_mag && s.powered .mag then STATUS_M_ZYXDA else 0 := by
  have hfirst : (s.burst w .mag (STATUS_REG_M ||| MAG_AUTO_INCREMENT) 7).getD 0 0 =
      if (w.offers s.ops 0).new_mag && s.powered .mag then 0x0F else 0 := by
    have hregister : (STATUS_REG_M ||| MAG_AUTO_INCREMENT) &&& 0x7F = STATUS_REG_M := by decide
    unfold Sensor.burst
    simp only [hregister, if_true]
    cases s.increments .mag (STATUS_REG_M ||| MAG_AUTO_INCREMENT) <;> cases s.blocks .mag <;> rfl
  rw [hfirst]
  split <;> rfl

/-- The driver reads what the sensors offer, unless it is to be dropped. -/
theorem read_accel_gyro_eq (degree : K) (h : Configured K st s ∨ Off s) :
    read_accel_gyro w degree st s =
      match w.fails s.ops, s.sample w degree with
      | some strerror, _ => (.raised (.os_error strerror), s.after 1)
      | none, none => (.returned none, s.after 1)
      | none, some sample =>
        match w.fails (s.ops + 1) with
        | some strerror => (.raised (.os_error strerror), s.after 2)
        | none =>
          if 0 < s.discard then (.returned none, { s.after 2 with discard := s.discard - 1 })
          else (.returned (some sample), s.after 2) := by
  have hstatus := burst_status (w := w) s
  unfold read_accel_gyro
  rw [block_bind]
  cases hfails : w.fails s.ops with
  | some strerror => rfl
  | none =>
    dsimp only
    unfold Sensor.sample
    by_cases hnew : ((w.offers s.ops 0).new_ag && s.powered .ag) = true
    · have hconfigured : Configured K st s := by
        rcases h with hconfigured | hoff
        · exact hconfigured
        · rw [hoff.1, Bool.and_false] at hnew
          cases hnew
      have hlater : Configured K st (s.after 1) := hconfigured
      rw [if_pos hnew] at hstatus
      rw [hstatus, if_neg (by decide), if_pos hnew, block_bind, (burst_ag hconfigured).1, (burst_ag hlater).2]
      change (match w.fails (s.ops + 1) with | some _ => _ | none => _) = _
      cases w.fails (s.ops + 1) with
      | some strerror => rfl
      | none =>
        dsimp only
        rw [vector_bytes, vector_bytes, accel_lsb_configured hconfigured, gyro_lsb_configured degree hconfigured]
        change (if 0 < s.discard then _ else _ : Prog Sensor Fault _) (s.after 2) = _
        split <;> rfl
    · rw [if_neg hnew] at hstatus
      rw [hstatus, if_pos (by decide), if_neg hnew]
      rfl

/-- The driver reads the magnetic field that the sensor offers. -/
theorem read_mag_eq (h : Configured K st s ∨ Off s) :
    read_mag w st s =
      match w.fails s.ops with
      | some strerror => (.raised (.os_error strerror), s.after 1)
      | none => (.returned (s.field (K := K) w), s.after 1) := by
  have hstatus := burst_status_mag (w := w) s
  unfold read_mag
  rw [block_bind]
  cases hfails : w.fails s.ops with
  | some strerror => rfl
  | none =>
    dsimp only
    unfold Sensor.field
    by_cases hnew : ((w.offers s.ops 0).new_mag && s.powered .mag) = true
    · have hconfigured : Configured K st s := by
        rcases h with hconfigured | hoff
        · exact hconfigured
        · rw [hoff.2, Bool.and_false] at hnew
          cases hnew
      rw [if_pos hnew] at hstatus
      rw [hstatus, if_neg (by decide), if_pos hnew, burst_mag hconfigured, vector_bytes,
        mag_lsb_configured hconfigured]
      rfl
    · rw [if_neg hnew] at hstatus
      rw [hstatus, if_pos (by decide), if_neg hnew]
      rfl

/-- What a poll of a chip that is configured or off leaves and returns: the sample that the sensors
offered, unless it is to be dropped, and the field. The registers stay as they are. -/
def Read (w : Wire) (degree : K) (s : Sensor)
    (r : Outcome Fault (Option (Axes K × Axes K) × Option (Axes K)) × Sensor) : Prop :=
  r.2.regs = s.regs ∧ r.2.resetting = s.resetting ∧ r.1 ≠ .running ∧
    ∀ sample field, r.1 = .returned (sample, field) →
      field = (s.after (if (s.sample w degree).isSome then 2 else 1)).field w ∧
      sample = (if 0 < s.discard then none else s.sample w degree) ∧
      r.2.discard = s.discard - (s.sample w degree).toList.length

omit [Field K] in
theorem read_raises (degree : K) [Field K] {s' : Sensor} (fault : Fault) (hregs : s'.regs = s.regs)
    (hresetting : s'.resetting = s.resetting) : Read w degree s (.raised fault, s') :=
  ⟨hregs, hresetting, fun h => (nomatch h), fun _ _ h => (nomatch h)⟩

theorem read_all_spec (degree : K) (h : Configured K st s ∨ Off s) : Read w degree s (read_all w degree st s) := by
  have hmag : ∀ s' : Sensor, s'.regs = s.regs → s'.resetting = s.resetting → read_mag (K := K) w st s' =
      match w.fails s'.ops with
      | some strerror => (.raised (.os_error strerror), s'.after 1)
      | none => (.returned (s'.field (K := K) w), s'.after 1) := by
    intro s' hregs hresetting
    apply read_mag_eq
    unfold Configured Configs Has Off Sensor.powered at *
    rw [hregs, hresetting]
    exact h
  change Read w degree s (Prog.bind (read_accel_gyro w degree st)
    (fun sample => Prog.bind (read_mag w st) fun field => Prog.ret (sample, field)) s)
  unfold Prog.bind
  rw [read_accel_gyro_eq degree h]
  cases w.fails s.ops with
  | some strerror => exact read_raises degree _ rfl rfl
  | none =>
    cases hsample : s.sample w degree with
    | none =>
      dsimp only
      rw [hmag (s.after 1) rfl rfl]
      cases w.fails (s.after 1).ops with
      | some strerror => exact read_raises degree _ rfl rfl
      | none =>
        refine ⟨rfl, rfl, fun h => (nomatch h), fun sample field hreturned => ?_⟩
        obtain ⟨rfl, rfl⟩ := Prod.mk.inj (Outcome.returned.inj hreturned)
        rw [hsample]
        exact ⟨rfl, by rw [ite_self], rfl⟩
    | some m =>
      dsimp only
      cases w.fails (s.ops + 1) with
      | some strerror => exact read_raises degree _ rfl rfl
      | none =>
        dsimp only
        by_cases hdrop : 0 < s.discard
        · rw [if_pos hdrop]
          dsimp only
          rw [hmag { s.after 2 with discard := s.discard - 1 } rfl rfl]
          cases w.fails ({ s.after 2 with discard := s.discard - 1 } : Sensor).ops with
          | some strerror => exact read_raises degree _ rfl rfl
          | none =>
            refine ⟨rfl, rfl, fun h => (nomatch h), fun sample field hreturned => ?_⟩
            obtain ⟨rfl, rfl⟩ := Prod.mk.inj (Outcome.returned.inj hreturned)
            rw [hsample, if_pos hdrop]
            exact ⟨rfl, rfl, rfl⟩
        · rw [if_neg hdrop]
          dsimp only
          rw [hmag (s.after 2) rfl rfl]
          cases w.fails (s.after 2).ops with
          | some strerror => exact read_raises degree _ rfl rfl
          | none =>
            refine ⟨rfl, rfl, fun h => (nomatch h), fun sample field hreturned => ?_⟩
            obtain ⟨rfl, rfl⟩ := Prod.mk.inj (Outcome.returned.inj hreturned)
            rw [hsample, if_neg hdrop]
            refine ⟨rfl, rfl, ?_⟩
            change s.discard = s.discard - 1
            omega

end IotRobot.Imu
