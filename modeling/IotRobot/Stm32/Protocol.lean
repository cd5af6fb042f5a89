import IotRobot.Lib.Text
import IotRobot.Web.Logic

/-!
# The line protocol of the sensor board

`stm32_protocol.py` on lists of characters, and the grammar of the lines that report a
sensor: what `parse_sensor_status` accepts is exactly a warning or a recovery line.
`float` of Python is a parameter: `none` is its `ValueError`.
-/

namespace IotRobot.Stm32

open Lib Web

set_option autoImplicit false

/-- `str.isspace` of one character. -/
def is_space (ch : Char) : Bool :=
  let n := ch.toNat
  (9 ≤ n && n ≤ 13) || (28 ≤ n && n ≤ 32) || n == 0x85 || n == 0xA0 || n == 0x1680 ||
    (0x2000 ≤ n && n ≤ 0x200A) || n == 0x2028 || n == 0x2029 || n == 0x202F || n == 0x205F ||
    n == 0x3000

abbrev Text := List Char

def stripped (line : Text) : Text := strip is_space line

def BANNER_PREFIX : Text := "# iot-stm32".toList
def RECOVERED : Text := "sensor recovered".toList

def side_name : Side → Text
  | .left => "left".toList
  | .right => "right".toList

/-- The side that a word of `SIDES` names. -/
def side_of (word : Text) : Option Side := SIDES.find? fun side => side_name side = word

section Reading
variable {K : Type} [Field K] [LinearOrder K]

/-- One measurement line. A distance of `none` means the sensor heard no echo. -/
structure Reading (K : Type) where
  left_cm : Option K
  right_cm : Option K
  volts : Option K := none

def Reading.cm (reading : Reading K) : Side → Option K
  | .left => reading.left_cm
  | .right => reading.right_cm

variable (float : Text → Option (Dbl K))

/-- `none` is the `ValueError` of a text that is no finite number; zero and anything
negative count as no echo. -/
def parse_distance (text : Text) : Option (Option K) :=
  match float text with
  | some (.fin cm) => some (if 0 < cm then some cm else none)
  | _ => none

def parse_fields : List Text → List (Text × Text) → Option (List (Text × Text))
  | [], fields => some fields
  | field :: rest, fields =>
    let (key, sep, value) := partition_at ':' field
    let key := stripped key
    if sep = false ∨ key = [] ∨ key ∈ fields.map Prod.fst then none
    else parse_fields rest (fields ++ [(key, stripped value)])

/-- A finite voltage, if the field is there; `none` refuses the line. -/
def parse_volts (text : Option Text) : Option (Option K) :=
  match text with
  | none => some none
  | some text =>
    match float text with
    | some (.fin volts) => some (some volts)
    | _ => none

/-- `none` for blank lines, comments and malformed lines. -/
def parse_line (line : Text) : Option (Reading K) :=
  let line := stripped line
  if line = [] ∨ line.head? = some '#' then none
  else do
    let fields ← parse_fields (line.splitOn ',') []
    let d1 ← fields.lookup "D1".toList
    let d2 ← fields.lookup "D2".toList
    let left ← parse_distance float d1
    let right ← parse_distance float d2
    let volts ← parse_volts float (fields.lookup "V".toList)
    return { left_cm := left, right_cm := right, volts := volts }

/-- The `Range` value in metres of a distance in centimetres. -/
def distance_to_range (cm : Option K) (min_range max_range : K) (faulty : Bool) : Dbl K :=
  if faulty then .nan
  else
    match cm with
    | none => .pinf
    | some cm =>
      let metres := cm / 100.0
      if max_range < metres then .pinf else .fin (max metres min_range)

end Reading

def is_comment (line : Text) : Bool := (stripped line).head? = some '#'

def is_banner (line : Text) : Bool := BANNER_PREFIX.isPrefixOf (stripped line)

structure SensorStatus where
  side : Side
  faulty : Bool
  detail : Text
  deriving DecidableEq

/-- What the body of a comment says after its keyword. -/
def parse_status_words (faulty : Bool) (text : Text) : Option SensorStatus :=
  match split_first is_space text with
  | [word, rest] =>
    match side_of word with
    | none => none
    | some side =>
      let detail := stripped rest
      -- other info lines may be added later; only this one ends a fault
      if faulty = false ∧ detail ≠ RECOVERED then none else some ⟨side, faulty, detail⟩
  | _ => none

def parse_status_body (text : Text) : List (Text × Bool) → Option SensorStatus
  | [] => none
  | (keyword, faulty) :: others =>
    if keyword.isPrefixOf text then parse_status_words faulty (text.drop keyword.length)
    else parse_status_body text others

/-- `none` for any line but `# warning: <side> <fault>` and
`# info: <side> sensor recovered`. -/
def parse_sensor_status (line : Text) : Option SensorStatus :=
  let text := stripped line
  if text.head? ≠ some '#' then none
  else parse_status_body (stripped (text.drop 1))
    [("warning:".toList, true), ("info:".toList, false)]

abbrev Spaces (text : Text) : Prop := Blank is_space text

/-- `# <keyword> <side> <detail>` with any spaces, where the detail starts with no space. -/
def Reports (keyword : Text) (side : Side) (detail line : Text) : Prop :=
  ∃ a b c d, Spaces a ∧ Spaces b ∧ Spaces c ∧ Spaces d ∧ d ≠ [] ∧
    (∃ ch rest, detail = ch :: rest ∧ is_space ch = false) ∧
    line = a ++ '#' :: (b ++ (keyword ++ (c ++ (side_name side ++ (d ++ detail)))))

/-- A line `# warning: <side> ...`. -/
def IsWarning (side : Side) (line : Text) : Prop :=
  ∃ detail, Reports "warning:".toList side detail line

/-- A line `# info: <side> sensor recovered`. -/
def IsRecovery (side : Side) (line : Text) : Prop :=
  ∃ e, Spaces e ∧ Reports "info:".toList side (RECOVERED ++ e) line

/-- A line that starts with `# iot-stm32`. -/
def IsBanner (line : Text) : Prop :=
  ∃ a rest, Spaces a ∧ line = a ++ (BANNER_PREFIX ++ rest)

end IotRobot.Stm32
