import IotRobot.Imu.Driver
import Mathlib.Tactic.Linarith
import Mathlib.Tactic.NormNum.OfScientific
import Mathlib.Tactic.Ring

/-!
# The configuration of the chip

Whatever an earlier program or attempt has left in the registers, and however often the bus
fails: `begin` ends, and if it succeeds, every register that can be written has the value after a
reset but for those of the configuration.
-/

namespace IotRobot.Imu

open Lib Prog

set_option autoImplicit false

variable {w : Wire} {s : Sensor} {chip : Chip}

/-- A register that can be written after a reset. -/
def Chip.power_on (chip : Chip) (register : Nat) : Nat := chip.reset_value register 0

/-- No reset is pending, and the registers that can be written have these values. -/
def Has (values : Nat → Nat) (chip : Chip) (s : Sensor) : Prop :=
  s.resetting chip = false ∧ ∀ register, chip.writable register → s.regs chip register = values register

/-- A reset of the device is pending, and its bit shows that. -/
def Resetting (chip : Chip) (s : Sensor) : Prop :=
  s.resetting chip = true ∧ s.regs chip chip.reset_register &&& chip.reset_bit ≠ 0

/-- A reset of the device is pending or done. -/
def Fresh (chip : Chip) (s : Sensor) : Prop := Resetting chip s ∨ Has chip.power_on chip s

/-- The part of the state that belongs to the device. -/
def Same (chip : Chip) (s s' : Sensor) : Prop :=
  s'.regs chip = s.regs chip ∧ s'.resetting chip = s.resetting chip

theorem Has.same {values : Nat → Nat} {s' : Sensor} (h : Has values chip s) (hs : Same chip s s') :
    Has values chip s' := by
  unfold Has
  rw [hs.1, hs.2]
  exact h

theorem Fresh.same {s' : Sensor} (h : Fresh chip s) (hs : Same chip s s') : Fresh chip s' := by
  rcases h with hpending | hdone
  · left
    unfold Resetting
    rw [hs.1, hs.2]
    exact hpending
  · exact .inr (hdone.same hs)

/-- What a program leaves behind: `P` if it returns, `E` if it raises; and it runs on only in too
few rounds. -/
def Ends {α : Type} (rounds : Nat) (E : Sensor → Prop) (P : α → Sensor → Prop) : Outcome Fault α → Sensor → Prop
  | .returned a, s => P a s
  | .raised _, s => E s
  | .running, _ => rounds < 51

variable {rounds : Nat} {E : Sensor → Prop}

theorem Ends.aborts {α β : Type} {P : α → Sensor → Prop} {Q : β → Sensor → Prop} :
    Aborts (Ends rounds E P) (Ends rounds E Q) := ⟨fun _ _ h => h, fun _ h => h⟩

theorem ends_raise {α : Type} {P : Sensor → Prop} {Q : α → Sensor → Prop} (fault : Fault) (h : ∀ s, P s → E s) :
    Triple P (raise fault) (Ends rounds E Q) := fun s hs => h s hs

theorem ends_pure {α : Type} {P : Sensor → Prop} {Q : α → Sensor → Prop} {a : α} (h : ∀ s, P s → Q a s) :
    Triple P (pure a) (Ends rounds E Q) := fun s hs => h s hs

theorem ends_bind {α β : Type} {P : Sensor → Prop} {R : α → Sensor → Prop} {Q : β → Sensor → Prop}
    {p : Prog Sensor Fault α} {f : α → Prog Sensor Fault β} (hp : Triple P p (Ends rounds E R))
    (hf : ∀ a, Triple (R a) (f a) (Ends rounds E Q)) : Triple P (p >>= f) (Ends rounds E Q) :=
  bind_rule hp hf Ends.aborts

theorem operate_rule {α : Type} {f : Nat → Sensor → α × Sensor} {P : Sensor → Prop} {Q : α → Sensor → Prop}
    (hfails : ∀ s, P s → E { s with ops := s.ops + 1 })
    (h : ∀ s, P s → Q (f s.ops { s with ops := s.ops + 1 }).1 (f s.ops { s with ops := s.ops + 1 }).2) :
    Triple P (operate w f) (Ends rounds E Q) := by
  intro s hs
  unfold operate
  cases w.fails s.ops with
  | some strerror => exact hfails s hs
  | none => exact h s hs

theorem reset_fresh (chip : Chip) (s : Sensor) : Has chip.power_on chip (s.reset chip) := by
  refine ⟨if_pos rfl, fun register hwritable => ?_⟩
  change (if chip = chip then chip.reset_value register (s.regs chip register) else _) = _
  rw [if_pos rfl]
  unfold Chip.power_on Chip.reset_value
  cases chip.defaults register with
  | some default => rfl
  | none => dsimp only; rw [if_pos hwritable, if_pos hwritable]

theorem reset_other {other : Chip} (h : other ≠ chip) (s : Sensor) : Same other s (s.reset chip) :=
  ⟨by funext register; exact if_neg h, if_neg h⟩

/-- The reset bits of a device that is not resetting are clear. -/
theorem look_reset_register (chip : Chip) (s : Sensor) (offer : Offer) :
    s.look chip chip.reset_register offer = s.regs chip chip.reset_register := by
  cases chip <;> rfl

/-- A read of the reset register: if the bit is clear, the reset is done. -/
theorem read_reset_rule (rounds : Nat) (P : Sensor → Prop) {other : Chip} (hne : other ≠ chip)
    (hP : ∀ s s', P s → Same other s s' → P s') :
    Triple (fun s => P s ∧ Fresh chip s) (read_byte_data w chip chip.reset_register)
      (Ends rounds (fun s => P s ∧ Fresh chip s) fun value s => P s ∧ Fresh chip s ∧
        (value &&& chip.reset_bit = 0 → Has chip.power_on chip s)) := by
  apply operate_rule
  · intro s ⟨hp, hfresh⟩
    exact ⟨hP s _ hp ⟨rfl, rfl⟩, hfresh.same ⟨rfl, rfl⟩⟩
  intro s ⟨hp, hfresh⟩
  dsimp only
  split
  · have hdone := reset_fresh chip { s with ops := s.ops + 1 }
    exact ⟨hP s _ hp (reset_other hne { s with ops := s.ops + 1 }), .inr hdone, fun _ => hdone⟩
  · rw [look_reset_register]
    refine ⟨hP s _ hp ⟨rfl, rfl⟩, hfresh.same ⟨rfl, rfl⟩, fun hclear => ?_⟩
    rcases hfresh with hpending | hdone
    · exact absurd hclear hpending.2
    · exact hdone.same ⟨rfl, rfl⟩

/-- Both devices are resetting or reset. -/
def BothFresh (s : Sensor) : Prop := Fresh .ag s ∧ Fresh .mag s

def BothReset (s : Sensor) : Prop := Has Chip.ag.power_on .ag s ∧ Has Chip.mag.power_on .mag s

/-- What a look at the reset bits finds. -/
def Found : ResetPoll → Sensor → Prop
  | .done, s => BothFresh s ∧ BothReset s
  | .pending, s => BothFresh s
  | .failed _, s => BothFresh s

/-- A look that finds both bits clear finds both resets done. -/
theorem poll_reset_rule (rounds : Nat) : Triple BothFresh (poll_reset w) (Ends rounds BothFresh Found) := by
  have hlook : Triple BothFresh
      (do
        let ag ← read_byte_data w .ag CTRL_REG8
        let mag ← read_byte_data w .mag CTRL_REG2_M
        if ag &&& CTRL_REG8_SW_RESET = 0 ∧ mag &&& CTRL_REG2_M_SOFT_RST = 0 then pure ResetPoll.done
        else pure .pending)
      (Ends rounds BothFresh Found) := by
    refine ends_bind (R := fun ag s => BothFresh s ∧
      (ag &&& CTRL_REG8_SW_RESET = 0 → Has Chip.ag.power_on .ag s)) ?_ fun ag => ?_
    · have hread := read_reset_rule (w := w) rounds (Fresh .mag) (show Chip.mag ≠ .ag by decide)
        fun s s' h hs => h.same hs
      refine hread.weaken (fun s h => ⟨h.2, h.1⟩) fun o s h => ?_
      cases o with
      | returned value => exact ⟨⟨h.2.1, h.1⟩, h.2.2⟩
      | raised fault => exact ⟨h.2, h.1⟩
      | running => exact h
    · have hread := read_reset_rule (w := w) rounds
        (fun s => Fresh .ag s ∧ (ag &&& CTRL_REG8_SW_RESET = 0 → Has Chip.ag.power_on .ag s))
        (show Chip.ag ≠ .mag by decide) fun s s' h hs => ⟨h.1.same hs, fun hclear => (h.2 hclear).same hs⟩
      refine ends_bind (R := fun mag s => BothFresh s ∧
        (ag &&& CTRL_REG8_SW_RESET = 0 → Has Chip.ag.power_on .ag s) ∧
        (mag &&& CTRL_REG2_M_SOFT_RST = 0 → Has Chip.mag.power_on .mag s)) ?_ fun mag => ?_
      · refine hread.weaken (fun s h => ⟨⟨h.1.1, h.2⟩, h.1.2⟩) fun o s h => ?_
        cases o with
        | returned value => exact ⟨⟨h.1.1, h.2.1⟩, h.1.2, h.2.2⟩
        | raised fault => exact ⟨h.1.1, h.2⟩
        | running => exact h
      · split
        · rename_i hclear
          exact ends_pure fun s h => ⟨h.1, h.2.1 hclear.1, h.2.2 hclear.2⟩
        · exact ends_pure fun s h => h.1
  unfold poll_reset
  refine handle_rule hlook ?_ ?_ ?_
  · exact fun _ _ h => h
  · intro fault
    cases fault with
    | os_error strerror => exact ends_pure fun s h => h
    | lsm9ds1_error error => exact ends_raise _ fun s h => h
  · exact fun _ h => h

section Wait
variable {K : Type} [Field K] [LinearOrder K] [IsStrictOrderedRing K]

/-- The wait ends within 51 looks, and it returns only once both resets are done. -/
theorem wait_for_reset_rule :
    Triple BothFresh (wait_for_reset w K rounds) (Ends rounds (fun _ => True) fun _ => BothReset) := by
  -- with `n` rounds to go, `rounds - n` intervals of the deadline are over
  let I : Nat → K → Sensor → Prop := fun n deadline s => BothFresh s ∧ n ≤ rounds ∧
    deadline = 0.1 - 0.002 * ((rounds - n : Nat) : K) ∧ -0.002 < deadline
  have hstart : Triple (I rounds RESET_TIMEOUT) (wait_for_reset w K rounds)
      (Ends rounds (fun _ => True) fun _ => BothReset) := by
    refine forever_rule I (R := fun n => Ends rounds (fun _ => True) fun next s =>
      Sum.elim (fun _ => BothReset s) (fun deadline => I n deadline s) next) ?_ ?_ ?_ ?_ ?_ rounds RESET_TIMEOUT
    · intro n deadline
      refine bind_rule (R := Ends rounds BothFresh fun result s => I (n + 1) deadline s ∧ Found result s)
        ?_ (fun result => ?_) ⟨fun _ _ _ => trivial, fun _ h => h⟩
      · intro s h
        have hpoll := poll_reset_rule (w := w) rounds s h.1
        generalize poll_reset w s = r at hpoll
        obtain ⟨o, s'⟩ := r
        cases o with
        | returned result =>
          have hfresh : BothFresh s' := by
            cases result with
            | done => exact hpoll.1
            | pending => exact hpoll
            | failed strerror => exact hpoll
          exact ⟨⟨hfresh, h.2⟩, hpoll⟩
        | raised fault => exact hpoll
        | running => exact hpoll
      · have hnext : ∀ s, I (n + 1) deadline s → ¬ deadline ≤ 0 → I n (deadline - RESET_POLL_INTERVAL) s := by
          intro s ⟨hfresh, hle, hdeadline, _⟩ hpos
          have hcount : rounds - n = rounds - (n + 1) + 1 := by omega
          refine ⟨hfresh, by omega, ?_, ?_⟩
          · rw [hcount, hdeadline, RESET_POLL_INTERVAL]
            push_cast
            ring
          · rw [RESET_POLL_INTERVAL]
            have hzero := not_le.mp hpos
            linarith
        cases result with
        | done => exact ends_pure fun s h => h.2.2
        | pending =>
          dsimp only
          split
          · exact ends_raise _ fun _ _ => trivial
          · rename_i hpos
            exact ends_pure fun s h => hnext s h.1 hpos
        | failed strerror =>
          dsimp only
          split
          · exact ends_raise _ fun _ _ => trivial
          · rename_i hpos
            exact ends_pure fun s h => hnext s h.1 hpos
    · exact fun _ _ _ h => h
    · exact fun _ _ _ h => h
    · exact fun _ => ⟨fun _ _ h => h, fun _ h => h⟩
    · intro deadline s ⟨_, _, hdeadline, hpos⟩
      rw [hdeadline, Nat.sub_zero] at hpos
      have hfew : (rounds : K) < 51 := by
        norm_num at hpos
        linarith
      exact_mod_cast hfew
  refine hstart.weaken (fun s h => ⟨h, le_rfl, ?_, ?_⟩) fun _ _ h => h
  · rw [Nat.sub_self, Nat.cast_zero, mul_zero, sub_zero]
    rfl
  · rw [RESET_TIMEOUT]
    norm_num

end Wait

/-- Both devices have these values. -/
def Configs (ag mag : Nat → Nat) (s : Sensor) : Prop := Has ag .ag s ∧ Has mag .mag s

/-- A write that starts no reset. -/
theorem write_rule (ag mag : Nat → Nat) (register value : Nat) (chip : Chip)
    (hreset : register ≠ chip.reset_register ∨ value &&& chip.reset_bit = 0) :
    Triple (Configs ag mag) (write_byte_data w chip register value) (Ends rounds (fun _ => True) fun _ =>
      match chip with
      | .ag => Configs (Function.update ag register value) mag
      | .mag => Configs ag (Function.update mag register value)) := by
  refine operate_rule (P := Configs ag mag) (fun _ _ => trivial) fun s hs => ?_
  obtain ⟨hag, hmag⟩ := hs
  have hno : ¬ (register = chip.reset_register ∧ value &&& chip.reset_bit ≠ 0) := by
    rintro ⟨hregister, hbit⟩
    rcases hreset with hother | hclear
    · exact hother hregister
    · exact hbit hclear
  dsimp only
  rw [if_neg hno]
  have hwritten : ∀ values, Has values chip s →
      Has (Function.update values register value) chip ({ s with ops := s.ops + 1 }.set chip register value) := by
    intro values h
    refine ⟨h.1, fun r hr => ?_⟩
    change (if chip = chip ∧ r = register then value else s.regs chip r) = _
    by_cases heq : r = register
    · rw [if_pos ⟨rfl, heq⟩, heq, Function.update_self]
    · rw [if_neg fun h => heq h.2, Function.update_of_ne heq, h.2 r hr]
  have hkept : ∀ values other, other ≠ chip → Has values other s →
      Has values other ({ s with ops := s.ops + 1 }.set chip register value) := by
    intro values other hother h
    refine h.same ⟨?_, rfl⟩
    funext r
    exact if_neg fun h => hother h.1
  cases chip with
  | ag => exact ⟨hwritten ag hag, hkept mag .mag (by decide) hmag⟩
  | mag => exact ⟨hkept ag .ag (by decide) hag, hwritten mag hmag⟩

/-- The values of the configuration. -/
def config (K : Type) [Field K] (st : Settings) : Chip → Nat → Nat
  | .ag =>
    let odr := ODR_BITS st.odr
    Function.update (Function.update (Function.update Chip.ag.power_on
      CTRL_REG8 (CTRL_REG8_BDU ||| CTRL_REG8_IF_ADD_INC))
      CTRL_REG1_G (odr <<< 5 ||| (GYRO_RANGES (K := K) st.gyro_range).1 <<< 3))
      CTRL_REG6_XL (odr <<< 5 ||| (ACCEL_RANGES (K := K) st.accel_range).1 <<< 3)
  | .mag =>
    Function.update (Function.update (Function.update (Function.update (Function.update Chip.mag.power_on
      CTRL_REG1_M CTRL_REG1_M_VALUE)
      CTRL_REG2_M ((MAG_RANGES (K := K) st.mag_range).1 <<< 5))
      CTRL_REG4_M CTRL_REG4_M_VALUE)
      CTRL_REG5_M CTRL_REG5_M_BDU)
      CTRL_REG3_M CTRL_REG3_M_CONTINUOUS

def Configured (K : Type) [Field K] (st : Settings) (s : Sensor) : Prop :=
  Configs (config K st .ag) (config K st .mag) s

theorem check_id_rule {P : Sensor → Prop} (chip : Chip) (address register expected : Nat) (name : String) :
    Triple P (check_id w chip address register expected name)
      (Ends rounds (fun _ => True) fun _ _ => True) := by
  refine ends_bind (R := fun _ _ => True) (handle_rule (R := Ends rounds (fun _ => True) fun _ _ => True)
    (operate_rule (fun _ _ => trivial) fun _ _ => trivial) (fun _ _ h => h) (fun fault => ?_) fun _ h => h)
    fun found => ?_
  · cases fault with
    | os_error strerror => exact ends_raise _ fun _ _ => trivial
    | lsm9ds1_error error => exact ends_raise _ fun _ _ => trivial
  · split
    · exact ends_raise _ fun _ _ => trivial
    · exact ends_pure fun _ _ => trivial

/-- A write that starts a reset. -/
theorem write_reset_rule (P : Sensor → Prop) {other : Chip} (hne : other ≠ chip) (value : Nat)
    (hbit : value &&& chip.reset_bit ≠ 0) (hP : ∀ s s', P s → Same other s s' → P s') :
    Triple P (write_byte_data w chip chip.reset_register value)
      (Ends rounds (fun _ => True) fun _ s => P s ∧ Fresh chip s) := by
  apply operate_rule
  · exact fun _ _ => trivial
  intro s hp
  dsimp only
  rw [if_pos ⟨rfl, hbit⟩]
  refine ⟨hP s _ hp ⟨?_, ?_⟩, .inl ⟨if_pos rfl, ?_⟩⟩
  · funext register
    exact if_neg fun h => hne h.1
  · exact if_neg hne
  · change (if chip = chip ∧ chip.reset_register = chip.reset_register then value else _) &&& _ ≠ 0
    rw [if_pos ⟨rfl, rfl⟩]
    exact hbit

section Begin
variable {K : Type} [Field K] [LinearOrder K] [IsStrictOrderedRing K]

/-- Whatever the registers hold and whatever the bus does, `begin` ends within 51 looks at the
reset bits; and if it succeeds, the chip is configured and the samples to drop are counted. -/
theorem begin_rule (rounds : Nat) (st : Settings) :
    Triple (fun _ => True) (begin_ w K st rounds) (Ends rounds (fun _ => True) fun _ s =>
      Configured K st s ∧ s.discard = TURN_ON_SAMPLES st.odr) := by
  unfold begin_
  refine ends_bind (check_id_rule _ _ _ _ _) fun _ => ?_
  refine ends_bind (check_id_rule _ _ _ _ _) fun _ => ?_
  refine ends_bind (write_reset_rule (fun _ => True) (show Chip.mag ≠ .ag by decide) _ (by decide)
    fun _ _ _ _ => trivial) fun _ => ?_
  refine ends_bind (write_reset_rule (fun s => True ∧ Fresh .ag s) (show Chip.ag ≠ .mag by decide) _
    (by decide) fun s s' h hs => ⟨trivial, h.2.same hs⟩) fun _ => ?_
  refine ends_bind (wait_for_reset_rule.weaken (fun s h => ⟨h.1.2, h.2⟩) fun _ _ h => h) fun _ => ?_
  refine ends_bind (write_rule Chip.ag.power_on Chip.mag.power_on _ _ .ag (.inr (by decide)))
    fun _ => ?_
  dsimp only
  refine ends_bind (write_rule _ _ _ _ .ag (.inl (by decide))) fun _ => ?_
  refine ends_bind (write_rule _ _ _ _ .ag (.inl (by decide))) fun _ => ?_
  refine ends_bind (write_rule _ _ _ _ .mag (.inl (by decide))) fun _ => ?_
  refine ends_bind (write_rule _ _ _ _ .mag (.inr ?_)) fun _ => ?_
  · have hbits : ∀ bits < 4, bits <<< 5 &&& Chip.mag.reset_bit = 0 := by decide
    apply hbits
    cases st.mag_range <;> simp [MAG_RANGES]
  refine ends_bind (write_rule _ _ _ _ .mag (.inl (by decide))) fun _ => ?_
  refine ends_bind (write_rule _ _ _ _ .mag (.inl (by decide))) fun _ => ?_
  refine ends_bind (write_rule _ _ _ _ .mag (.inl (by decide))) fun _ => ?_
  exact fun s h => ⟨h, rfl⟩

end Begin

end IotRobot.Imu
