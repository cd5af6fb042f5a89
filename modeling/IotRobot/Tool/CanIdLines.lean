import IotRobot.Lib.Lines
import IotRobot.Stm32.Protocol
import IotRobot.Tool.MotorConfig

/-!
# The scanner of write_can_ids

The lines of a motors.yaml are read one by one; the two regular expressions tell which joint a
line belongs to and where the value of a `can_id` line stands. The scanner follows the blocks of
the file by their indentation alone.
-/

namespace IotRobot.Tool

open Lib Can
open Stm32 (Text is_space stripped Spaces)

set_option autoImplicit false

/-- What ends a line for `str.splitlines`. -/
def is_break (ch : Char) : Bool :=
  let n := ch.toNat
  (10 ≤ n && n ≤ 13) || (28 ≤ n && n ≤ 30) || n == 0x85 || n == 0x2028 || n == 0x2029

/-- `text.splitlines(keepends=True)`. -/
def splitlines (text : Text) : List Text :=
  split_lines is_break (fun first second => first == '\r' && second == '\n') [] text

/-- `str` of an integer has at most this many digits. -/
def MAX_STR_DIGITS : Nat := 4300

def int_text (i : Int) : Text := (if i < 0 then ['-'] else []) ++ Nat.toDigits 10 i.natAbs

/-- `str(i)`; `none` is its `ValueError`. -/
def str_int (i : Int) : Option Text :=
  if (Nat.toDigits 10 i.natAbs).length ≤ MAX_STR_DIGITS then some (int_text i) else none

def is_blank (ch : Char) : Bool := ch == ' '

def word_char (ch : Char) : Bool := ch.isAlphanum || ch == '_'

def value_char (ch : Char) : Bool := !is_space ch && ch != '#'

/-- `(#.*)?$`. -/
def comment_to_end : Text → Bool
  | [] => true
  | '#' :: comment =>
    let rest := comment.dropWhile fun ch => ch != '\n'
    rest == [] || rest == ['\n']
  | _ => false

/-- The key of a line that matches `_JOINT_LINE`. -/
def joint_line (line : Text) : Option Text :=
  let rest := line.dropWhile is_blank
  let key := rest.takeWhile word_char
  match (rest.dropWhile word_char).dropWhile is_space with
  | ':' :: rest =>
    if key ≠ [] ∧ comment_to_end (rest.dropWhile is_space) = true then some key else none
  | _ => none

/-- The head, the value and the tail of a line that matches `_CAN_ID_LINE`. -/
def can_id_line (line : Text) : Option (Text × Text × Text) :=
  let blanks := line.takeWhile is_blank
  let rest := line.dropWhile is_blank
  if blanks = [] ∨ "can_id".toList.isPrefixOf rest = false then none
  else
    let rest := rest.drop "can_id".toList.length
    let before := rest.takeWhile is_space
    match rest.dropWhile is_space with
    | ':' :: rest =>
      let gap := rest.takeWhile is_space
      let rest := rest.dropWhile is_space
      let value := rest.takeWhile value_char
      if value = [] then none
      else some (blanks ++ "can_id".toList ++ before ++ ':' :: gap, value, rest.dropWhile value_char)
    | _ => none

structure Scan where
  in_motors : Bool := false
  joint_indent : Option Nat := none
  joint : Option Text := none

/-- `len(line) - len(line.lstrip(" "))`. -/
def indent_of (line : Text) : Nat := line.length - (line.dropWhile is_blank).length

section Scan
variable {K : Type} (can_ids : Dict String Int)

/-- The `ValueError` of an integer too long to print, unless it can be printed. -/
def printed {α : Type} (printable : Bool) (a : α) : Except (Exception K) α :=
  if printable then .ok a else .error (.value_error "Exceeds the limit for integer string conversion")

/-- A line whose `can_id` value is replaced if its joint gets a new CAN ID. -/
def rewrite_line (joint : Option Text) (line : Text) : Except (Exception K) Text :=
  match joint.bind fun joint => can_ids.get (String.ofList joint), can_id_line line with
  | some can_id, some (head, _, tail) =>
    printed (str_int can_id).isSome (head ++ int_text can_id ++ tail)
  | _, _ => .ok line

def scan_line (s : Scan) (line : Text) : Except (Exception K) (Scan × Text) :=
  let text := stripped line
  if text = [] ∨ text.head? = some '#' then .ok (s, line)
  else if indent_of line = 0 then
    .ok ({ s with
      in_motors := stripped (partition_at ':' text).1 = "motors".toList
      joint := none }, line)
  else if s.in_motors = false then .ok (s, line)
  else
    -- the first line under motors: sets the indentation of the joint names
    let joint_indent := s.joint_indent.getD (indent_of line)
    if indent_of line = joint_indent then
      .ok ({ s with joint_indent := some joint_indent, joint := joint_line line }, line)
    else do
      let line ← rewrite_line can_ids s.joint line
      pure ({ s with joint_indent := some joint_indent }, line)

def scan_lines : Scan → List Text → Except (Exception K) (Scan × List Text)
  | s, [] => pure (s, [])
  | s, line :: lines => do
    let (s, line) ← scan_line can_ids s line
    let (s, lines) ← scan_lines s lines
    pure (s, line :: lines)

/-- The text with the new CAN IDs. -/
def rewrite_text (text : Text) : Except (Exception K) Text := do
  let (_, lines) ← scan_lines can_ids {} (splitlines text)
  pure lines.flatten

end Scan

/-- A line is followed by a newline, or by nothing. -/
inductive Ends : Text → Prop
  | nothing : Ends []
  | newline : Ends ['\n']

section Runs
variable {K : Type} {can_ids : Dict String Int} {s s' s'' : Scan} {line line' : Text}
  {lines lines' more more' : List Text} {p q : Bool}

/-- The scanner leaves this line behind, whatever ends it, if what it prints can be printed. -/
def StepsTo (K : Type) (can_ids : Dict String Int) (s : Scan) (line : Text) (p : Bool) (line' : Text)
    (s' : Scan) : Prop :=
  ∀ e, Ends e → (scan_line can_ids s (line ++ e) : Except (Exception K) _) =
    printed p (s', line' ++ e)

/-- ... and these lines. -/
inductive RunsTo (K : Type) (can_ids : Dict String Int) :
    Scan → List Text → Bool → List Text → Scan → Prop
  | nil (s : Scan) : RunsTo K can_ids s [] true [] s
  | cons {s s' s'' : Scan} {line line' : Text} {lines lines' : List Text} {p q : Bool}
      (first : StepsTo K can_ids s line p line' s') (rest : RunsTo K can_ids s' lines q lines' s'') :
      RunsTo K can_ids s (line :: lines) (p && q) (line' :: lines') s''

theorem RunsTo.append (h : RunsTo K can_ids s lines p lines' s')
    (hmore : RunsTo K can_ids s' more q more' s'') :
    RunsTo K can_ids s (lines ++ more) (p && q) (lines' ++ more') s'' := by
  induction h with
  | nil s => exact hmore
  | cons first _ ih =>
    rw [Bool.and_assoc]
    exact .cons first (ih hmore)

theorem RunsTo.scan_lines (h : RunsTo K can_ids s lines p lines' s') (final : Bool) :
    (scan_lines can_ids s (closed_lines '\n' final lines) : Except (Exception K) _) =
      printed p (s', closed_lines '\n' final lines') := by
  induction h with
  | nil s => rfl
  | @cons s s' s'' line line' lines lines' p q first rest ih =>
    cases rest with
    | nil s =>
      have hlast : ∃ e, Ends e ∧ closed_lines '\n' final [line] = [line ++ e] ∧
          closed_lines '\n' final [line'] = [line' ++ e] := by
        cases final with
        | true => exact ⟨['\n'], .newline, rfl, rfl⟩
        | false => exact ⟨[], .nothing, by rw [List.append_nil]; rfl, by rw [List.append_nil]; rfl⟩
      obtain ⟨e, he, hline, hline'⟩ := hlast
      rw [hline, hline', Tool.scan_lines, first e he, Bool.and_true]
      cases p <;> rfl
    | cons second rest =>
      rw [closed_lines, Tool.scan_lines, first _ .newline]
      cases p with
      | false => rfl
      | true =>
        show (Tool.scan_lines can_ids s' _ >>= fun r => pure (r.1, _ :: r.2)) = _
        rw [ih, Bool.true_and]
        generalize (_ && _ : Bool) = both
        cases both <;> rfl

end Runs

end IotRobot.Tool
