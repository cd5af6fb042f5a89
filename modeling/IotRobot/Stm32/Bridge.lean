import Mathlib.Logic.Function.Basic
import IotRobot.Stm32.Comments

/-!
# The bridge of the sensor board

`Stm32Bridge` between a line and what it publishes. The only state is which sides the
firmware reported as faulty; a reconnect and the boot banner clear it.
-/

namespace IotRobot.Stm32

open Lib Web

set_option autoImplicit false

/-- The parameters `min_range` and `max_range`. -/
structure RangeLimits (K : Type) where
  min_range : K
  max_range : K

/-- A published message: `/ultrasonic/<side>` or `/battery_state`. -/
inductive Published (K : Type) where
  | range (side : Side) (range : Dbl K)
  | battery (voltage : K)
  deriving DecidableEq

/-- Sides the firmware reported as faulty. -/
structure Stm32Bridge where
  faulty : Side → Bool := fun _ => false

namespace Stm32Bridge

/-- A successful `connect`: the board may have reset while unplugged. -/
def connect (_ : Stm32Bridge) : Stm32Bridge := {}

def handle_comment (text : Text) (s : Stm32Bridge) : Stm32Bridge :=
  match parse_sensor_status text with
  | some status => { faulty := Function.update s.faulty status.side status.faulty }
  | none =>
    -- a reset clears the firmware's fault state; it warns again if the fault lasts
    if is_banner text ∧ SIDES.any s.faulty then { faulty := fun _ => false } else s

variable {K : Type} [Field K] [LinearOrder K] (p : RangeLimits K)
variable (float : Text → Option (Dbl K))

def publish_reading (reading : Reading K) (s : Stm32Bridge) : List (Published K) :=
  (SIDES.map fun side => .range side
    (distance_to_range (reading.cm side) p.min_range p.max_range (s.faulty side))) ++
  (reading.volts.map Published.battery).toList

def handle_line (line : Text) (s : Stm32Bridge) : List (Published K) × Stm32Bridge :=
  match parse_line float line with
  | none =>
    let text := stripped line
    ([], if is_comment text then s.handle_comment text else s)
  | some reading => (s.publish_reading p reading, s)

end Stm32Bridge

theorem stripped_stripped (line : Text) : stripped (stripped line) = stripped line :=
  strip_strip _ _

/-- A line that reports a side or is the banner is a comment. -/
theorem comment_of_status {line : Text} {status : SensorStatus}
    (h : parse_sensor_status line = some status) : (stripped line).head? = some '#' := by
  by_contra hne
  unfold parse_sensor_status at h
  dsimp only at h
  rw [if_pos hne] at h
  cases h

theorem comment_of_banner {line : Text} (h : is_banner line = true) :
    (stripped line).head? = some '#' := by
  obtain ⟨rest, hrest⟩ := List.isPrefixOf_iff_prefix.mp h
  rw [← hrest]
  rfl

theorem status_stripped (line : Text) :
    parse_sensor_status (stripped line) = parse_sensor_status line := by
  unfold parse_sensor_status
  rw [stripped_stripped]

/-- A recovery of the side, or the banner. -/
def ClearsFault (side : Side) (line : Text) : Prop := IsRecovery side line ∨ IsBanner line

section Line
variable {K : Type} [Field K] [LinearOrder K] (p : RangeLimits K)
variable (float : Text → Option (Dbl K))

theorem handle_comment_line {line : Text} (h : (stripped line).head? = some '#')
    (s : Stm32Bridge) :
    s.handle_line p float line = ([], s.handle_comment (stripped line)) := by
  have hcomment : is_comment (stripped line) = true := by
    unfold is_comment
    rw [stripped_stripped, h]
    rfl
  unfold Stm32Bridge.handle_line parse_line
  dsimp only
  rw [if_pos (.inr h)]
  simp only [hcomment, ↓reduceIte]

/-- A line that reports nothing leaves the fault state alone. -/
theorem handle_other_line {line : Text} (hstatus : parse_sensor_status line = none)
    (hbanner : is_banner line = false) (s : Stm32Bridge) :
    (s.handle_line p float line).2 = s := by
  have hcomment : s.handle_comment (stripped line) = s := by
    unfold Stm32Bridge.handle_comment
    rw [status_stripped, hstatus]
    have hb : is_banner (stripped line) = false := by
      unfold is_banner
      rw [stripped_stripped]
      exact hbanner
    dsimp only
    rw [hb, if_neg (fun h => Bool.noConfusion h.1)]
  unfold Stm32Bridge.handle_line
  split
  · dsimp only
    split
    · exact hcomment
    · rfl
  · rfl

/-- After a line a side is faulty if it was a warning, sound if it was a recovery or the
banner, and as before otherwise. -/
theorem handle_line_faulty (line : Text) (side : Side) (s : Stm32Bridge) :
    (IsWarning side line → (s.handle_line p float line).2.faulty side = true) ∧
    (ClearsFault side line → (s.handle_line p float line).2.faulty side = false) ∧
    (¬ IsWarning side line → ¬ ClearsFault side line →
      (s.handle_line p float line).2.faulty side = s.faulty side) := by
  cases hstatus : parse_sensor_status line with
  | some status =>
    have hbanner : ¬ IsBanner line := by
      rw [← banner_iff]
      intro hb
      rw [banner_no_status hb] at hstatus
      cases hstatus
    have hline := handle_comment_line p float (comment_of_status hstatus) s
    have hupdate : (s.handle_line p float line).2.faulty =
        Function.update s.faulty status.side status.faulty := by
      rw [hline]
      unfold Stm32Bridge.handle_comment
      rw [status_stripped, hstatus]
    rw [hupdate]
    refine ⟨fun hw => ?_, fun hcl => ?_, fun hw hcl => ?_⟩
    · obtain ⟨detail, hd⟩ := (fault_iff line side).mpr hw
      obtain rfl := Option.some.inj (hstatus.symm.trans hd)
      exact Function.update_self _ _ _
    · obtain ⟨detail, hd⟩ := (recovery_iff line side).mpr (hcl.resolve_right hbanner)
      obtain rfl := Option.some.inj (hstatus.symm.trans hd)
      exact Function.update_self _ _ _
    · by_cases hside : side = status.side
      · subst hside
        rcases reports_of_status hstatus with ⟨_, h⟩ | ⟨_, h⟩
        · exact absurd h hw
        · exact absurd (.inl h) hcl
      · exact Function.update_of_ne hside _ _
  | none =>
    have hw : ¬ IsWarning side line := by
      intro h
      obtain ⟨detail, hd⟩ := (fault_iff line side).mpr h
      rw [hstatus] at hd
      cases hd
    have hr : ¬ IsRecovery side line := by
      intro h
      obtain ⟨detail, hd⟩ := (recovery_iff line side).mpr h
      rw [hstatus] at hd
      cases hd
    cases hb : is_banner line with
    | true =>
      have hclears : ClearsFault side line := .inr ((banner_iff line).mp hb)
      refine ⟨fun h => absurd h hw, fun _ => ?_, fun _ h => absurd hclears h⟩
      rw [handle_comment_line p float (comment_of_banner hb) s]
      unfold Stm32Bridge.handle_comment
      rw [status_stripped, hstatus]
      dsimp only
      split
      · rfl
      · rename_i hany
        have hb' : is_banner (stripped line) = true := by
          unfold is_banner
          rw [stripped_stripped]
          exact hb
        have hnone : SIDES.any s.faulty = false :=
          Bool.eq_false_iff.mpr fun h => hany ⟨hb', h⟩
        exact Bool.eq_false_iff.mpr (List.any_eq_false.mp hnone side (mem_SIDES side))
    | false =>
      have hnot : ¬ ClearsFault side line := by
        rintro (h | h)
        · exact hr h
        · rw [← banner_iff, hb] at h
          cases h
      refine ⟨fun h => absurd h hw, fun h => absurd h hnot, fun _ _ => ?_⟩
      rw [handle_other_line p float hstatus hb]

end Line

end IotRobot.Stm32
