import Mathlib.Data.List.Basic

/-!
# The lines of a text

`str.splitlines(keepends=True)` of Python on lists, over any predicate for what breaks a line
and for which two elements break it together. A text whose lines hold no break is split into
its lines again.
-/

namespace IotRobot.Lib

set_option autoImplicit false

section Lines
variable {α : Type*} (is_break : α → Bool) (together : α → α → Bool)

/-- `text.splitlines(keepends=True)` behind the line that is open already. -/
def split_lines (line : List α) : List α → List (List α)
  | [] => if line.isEmpty then [] else [line]
  | [x] => [line ++ [x]]
  | x :: y :: rest =>
    if is_break x && together x y then (line ++ [x, y]) :: split_lines [] rest
    else if is_break x then (line ++ [x]) :: split_lines [] (y :: rest)
    else split_lines (line ++ [x]) (y :: rest)

/-- The lines with their ends: the last one may have none. -/
def closed_lines (newline : α) (final : Bool) : List (List α) → List (List α)
  | [] => []
  | [line] => [if final then line ++ [newline] else line]
  | line :: next :: lines => (line ++ [newline]) :: closed_lines newline final (next :: lines)

variable {is_break together} {newline : α} {line rest : List α}

/-- An element that breaks the line on its own. -/
theorem split_lines_break (hbreak : is_break newline = true) (halone : ∀ y, together newline y = false)
    (line rest : List α) : split_lines is_break together line (newline :: rest) =
      (line ++ [newline]) :: split_lines is_break together [] rest := by
  cases rest with
  | nil => rfl
  | cons y rest => rw [split_lines, halone, Bool.and_false, if_neg Bool.false_ne_true, if_pos hbreak]

theorem split_lines_plain {x : α} (hx : is_break x = false) (line rest : List α) :
    split_lines is_break together line (x :: rest) =
      split_lines is_break together (line ++ [x]) rest := by
  cases rest with
  | nil =>
    rw [split_lines, split_lines, if_neg]
    rw [List.isEmpty_iff]
    exact List.append_ne_nil_of_right_ne_nil _ (List.cons_ne_nil _ _)
  | cons y rest =>
    rw [split_lines, hx, Bool.false_and, if_neg Bool.false_ne_true, if_neg Bool.false_ne_true]

theorem split_lines_append (hline : ∀ x ∈ line, is_break x = false) (open_ rest : List α) :
    split_lines is_break together open_ (line ++ rest) =
      split_lines is_break together (open_ ++ line) rest := by
  induction line generalizing open_ with
  | nil => rw [List.nil_append, List.append_nil]
  | cons x line ih =>
    rw [List.cons_append, split_lines_plain (hline x List.mem_cons_self),
      ih fun y hy => hline y (List.mem_cons_of_mem _ hy), List.append_assoc, List.singleton_append]

/-- A text is split into the lines it was made of. -/
theorem split_lines_ended (hbreak : is_break newline = true)
    (halone : ∀ y, together newline y = false) {final : Bool} {lines : List (List α)}
    (hlines : ∀ line ∈ lines, ∀ x ∈ line, is_break x = false)
    (hlast : final = false → ∀ line, lines.getLast? = some line → line ≠ []) :
    split_lines is_break together [] (closed_lines newline final lines).flatten =
      closed_lines newline final lines := by
  induction lines with
  | nil => rfl
  | cons line lines ih =>
    have hfirst := hlines line List.mem_cons_self
    cases lines with
    | nil =>
      unfold closed_lines
      rw [List.flatten_cons, List.flatten_nil, List.append_nil]
      cases final with
      | true =>
        rw [if_pos rfl, split_lines_append hfirst, split_lines_break hbreak halone,
          List.nil_append]
        rfl
      | false =>
        have hne : line ≠ [] := hlast rfl line rfl
        have hopen : split_lines is_break together [] (line ++ []) =
            split_lines is_break together ([] ++ line) [] := split_lines_append hfirst [] []
        rw [List.append_nil, List.nil_append] at hopen
        rw [if_neg Bool.false_ne_true, hopen, split_lines, if_neg (mt List.isEmpty_iff.mp hne)]
    | cons next lines =>
      have hrest := ih (fun l hl => hlines l (List.mem_cons_of_mem _ hl)) fun hfinal l hl =>
        hlast hfinal l (by rwa [List.getLast?_cons_cons])
      rw [closed_lines, List.flatten_cons, List.append_assoc, List.singleton_append,
        split_lines_append hfirst, split_lines_break hbreak halone, List.nil_append, hrest]

end Lines

end IotRobot.Lib
