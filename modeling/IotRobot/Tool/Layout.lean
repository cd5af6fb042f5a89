import IotRobot.Tool.CanIdLines

/-!
# Block style

A motors.yaml in block style: one `motors:` block, the joints and their keys each on lines of
their own, in any order, with blank lines, comment lines and trailing comments anywhere. The
scanner of `write_can_ids` follows every such file whose `motors:` is in column 0, and passes
over a file that is indented as a whole.
-/

namespace IotRobot.Tool

open Lib Can
open Stm32 (Text is_space stripped Spaces)

set_option autoImplicit false

/-- The text of a comment, which stays on its line. -/
abbrev Comment := { text : Text // ∀ ch ∈ text, is_break ch = false }

/-- A value without blanks and comment signs. -/
abbrev Token := { text : Text // text ≠ [] ∧ ∀ ch ∈ text, value_char ch = true }

def blanks (n : Nat) : Text := List.replicate n ' '

/-- What stands on a line behind everything else. -/
structure Trailing where
  spaces : Nat := 0
  comment : Option Comment := none
  apart : comment.isSome = true → 0 < spaces

def Trailing.line (trailing : Trailing) : Text :=
  blanks trailing.spaces ++
    match trailing.comment with
    | none => []
    | some comment => '#' :: comment.val

/-- A blank line or a comment line. -/
inductive Filler where
  | blank (spaces : Nat)
  | comment (spaces : Nat) (text : Comment)

def Filler.line : Filler → Text
  | .blank spaces => blanks spaces
  | .comment spaces text => blanks spaces ++ '#' :: text.val

/-- `name:` on a line of its own. -/
structure Header where
  before : Nat := 0
  trailing : Trailing

def Header.line (header : Header) (indent : Nat) (name : String) : Text :=
  blanks indent ++ (name.toList ++ (blanks header.before ++ ':' :: header.trailing.line))

/-- `key: value`. -/
structure KeyLine where
  key : String
  known : key ∈ KEYS
  before : Nat := 0
  gap : Nat := 1
  gap_pos : 0 < gap
  value : Token
  trailing : Trailing

def KeyLine.line (indent : Nat) (line : KeyLine) : Text :=
  blanks indent ++ (line.key.toList ++ (blanks line.before ++ ':' ::
    (blanks line.gap ++ (line.value.val ++ line.trailing.line))))

structure JointBlock where
  joint : String
  known : joint ∈ JOINTS
  header : Header
  indent : Nat
  body : List (Filler ⊕ KeyLine)

def JointBlock.lines (joint_indent : Nat) (block : JointBlock) : List Text :=
  block.header.line joint_indent block.joint ::
    block.body.map (Sum.elim Filler.line (KeyLine.line block.indent))

structure Layout where
  top : List Filler
  /-- Where `motors:` stands. -/
  column : Nat := 0
  header : Header
  lead : List Filler
  joint_indent : Nat
  under_motors : column < joint_indent
  blocks : List JointBlock
  deeper : ∀ block ∈ blocks, joint_indent < block.indent

def Layout.lines (layout : Layout) : List Text :=
  layout.top.map Filler.line ++ (layout.header.line layout.column "motors" ::
    (layout.lead.map Filler.line ++ layout.blocks.flatMap (JointBlock.lines layout.joint_indent)))

/-- The text, with or without a newline at its end. -/
def Layout.text (layout : Layout) (final : Bool) : Text := (closed_lines '\n' final layout.lines).flatten

/-- A text without a newline at its end does not end in an empty line. -/
def Layout.Ended (layout : Layout) (final : Bool) : Prop :=
  final = false → ∀ line, layout.lines.getLast? = some line → line ≠ []

theorem word_plain {ch : Char} (h : word_char ch = true) :
    is_space ch = false ∧ is_blank ch = false ∧ ch ≠ '#' ∧ ch ≠ ':' := by
  have hrange : (48 ≤ ch.toNat ∧ ch.toNat ≤ 57) ∨ (65 ≤ ch.toNat ∧ ch.toNat ≤ 90) ∨
      (97 ≤ ch.toNat ∧ ch.toNat ≤ 122) ∨ ch.toNat = 95 := by
    unfold word_char Char.isAlphanum Char.isAlpha Char.isUpper Char.isLower Char.isDigit at h
    simp only [Bool.or_eq_true, Bool.and_eq_true, decide_eq_true_eq, beq_iff_eq] at h
    rcases h with ((h | h) | h) | rfl
    · exact .inr (.inl h)
    · exact .inr (.inr (.inl h))
    · exact .inl h
    · exact .inr (.inr (.inr rfl))
  refine ⟨?_, ?_, ?_, ?_⟩
  · unfold is_space
    simp only [Bool.or_eq_false_iff, Bool.and_eq_false_iff, decide_eq_false_iff_not, beq_eq_false_iff_ne]
    omega
  · unfold is_blank
    rw [beq_eq_false_iff_ne]
    rintro rfl
    revert hrange
    decide
  · rintro rfl
    revert hrange
    decide
  · rintro rfl
    revert hrange
    decide

theorem blanks_spaces (n : Nat) : Spaces (blanks n) := by
  intro ch hch
  rw [List.eq_of_mem_replicate hch]
  rfl

theorem blanks_blank (n : Nat) : Blank is_blank (blanks n) := by
  intro ch hch
  rw [List.eq_of_mem_replicate hch]
  rfl

theorem Ends.spaces {e : Text} (he : Ends e) : Spaces e := by
  cases he with
  | nothing => exact .nil
  | newline => exact List.all_eq_true.mp (by decide : ['\n'].all is_space = true)

/-- The names of the file are words. -/
theorem name_chars {name : String} (h : name ∈ "motors" :: (JOINTS ++ KEYS)) :
    name.toList ≠ [] ∧ ∀ ch ∈ name.toList, word_char ch = true := by
  have hall : ("motors" :: (JOINTS ++ KEYS)).all
      (fun name => name.toList != [] && name.toList.all word_char) = true := by decide +kernel
  have hname := List.all_eq_true.mp hall name h
  rw [Bool.and_eq_true, bne_iff_ne, List.all_eq_true] at hname
  exact hname

section Match
variable {e name r : Text} {k : Nat}

theorem blanks_stops {p : Char → Bool} (hblank : p ' ' = false) (hr : StopsAt p r) (n : Nat) :
    StopsAt p (blanks n ++ r) := by
  cases n with
  | zero => exact hr
  | succ n => exact .cons hblank

theorem name_stops {p : Char → Bool} (hne : name ≠ []) (hname : ∀ ch ∈ name, word_char ch = true)
    (hword : ∀ ch, word_char ch = true → p ch = false) (r : Text) : StopsAt p (name ++ r) := by
  obtain ⟨ch, rest, rfl⟩ := List.exists_cons_of_ne_nil hne
  exact .cons (hword ch (hname ch List.mem_cons_self))

/-- A line with a name on it is no blank line and no comment. -/
theorem name_line (hne : name ≠ []) (hname : ∀ ch ∈ name, word_char ch = true) (k : Nat) (r : Text) :
    ¬ (stripped (blanks k ++ (name ++ r)) = [] ∨
        (stripped (blanks k ++ (name ++ r))).head? = some '#') ∧
      indent_of (blanks k ++ (name ++ r)) = k := by
  constructor
  · obtain ⟨ch, rest, rfl⟩ := List.exists_cons_of_ne_nil hne
    have hplain := word_plain (hname ch List.mem_cons_self)
    unfold stripped
    rw [strip_blank_append (blanks_spaces k), List.cons_append, strip_cons hplain.1]
    rintro (h | h)
    · cases h
    · exact hplain.2.2.1 (Option.some.inj h)
  · unfold indent_of
    rw [dropWhile_stops (blanks_blank k) (name_stops hne hname (fun ch h => (word_plain h).2.1) r),
      List.length_append]
    unfold blanks
    rw [List.length_replicate]
    omega

theorem trailing_stops (trailing : Trailing) {p : Char → Bool} (hblank : p ' ' = false)
    (hend : p '\n' = false) (he : Ends e) : StopsAt p (trailing.line ++ e) := by
  obtain ⟨spaces, comment, apart⟩ := trailing
  unfold Trailing.line
  rw [List.append_assoc]
  cases spaces with
  | succ n => exact .cons hblank
  | zero =>
    cases comment with
    | some comment => exact absurd (apart rfl) (Nat.lt_irrefl 0)
    | none =>
      cases he with
      | nothing => exact .nil
      | newline => exact .cons hend

theorem trailing_comment (trailing : Trailing) (he : Ends e) :
    comment_to_end ((trailing.line ++ e).dropWhile is_space) = true := by
  obtain ⟨spaces, comment, apart⟩ := trailing
  unfold Trailing.line
  rw [List.append_assoc, dropWhile_blank (blanks_spaces spaces)]
  cases comment with
  | none =>
    rw [List.nil_append, he.spaces.dropWhile]
    rfl
  | some comment =>
    have hcomment : ∀ ch ∈ comment.val, (ch != '\n') = true := by
      intro ch hch
      rw [bne_iff_ne]
      rintro rfl
      exact absurd (comment.property _ hch) (by decide)
    dsimp only
    rw [List.cons_append, dropWhile_cons_neg (by decide)]
    show (((comment.val ++ e).dropWhile fun ch => ch != '\n') == [] ||
      ((comment.val ++ e).dropWhile fun ch => ch != '\n') == ['\n']) = true
    rw [List.dropWhile_append_of_pos hcomment]
    cases he <;> decide

theorem joint_line_header (hne : name ≠ []) (hname : ∀ ch ∈ name, word_char ch = true)
    (k before : Nat) (trailing : Trailing) (he : Ends e) :
    joint_line (blanks k ++ (name ++ (blanks before ++ ':' :: (trailing.line ++ e)))) = some name := by
  have hword : StopsAt word_char (blanks before ++ ':' :: (trailing.line ++ e)) :=
    blanks_stops (by decide) (.cons (by decide)) before
  unfold joint_line
  rw [dropWhile_stops (blanks_blank k) (name_stops hne hname (fun ch h => (word_plain h).2.1) _)]
  dsimp only
  rw [takeWhile_stops hname hword, dropWhile_stops hname hword,
    dropWhile_stops (blanks_spaces before) (.cons (by decide))]
  exact if_pos ⟨hne, trailing_comment trailing he⟩

theorem can_id_line_value (hk : 0 < k) (before gap : Nat) (value : Token) (trailing : Trailing)
    (he : Ends e) :
    can_id_line (blanks k ++ ("can_id".toList ++ (blanks before ++ ':' ::
        (blanks gap ++ (value.val ++ (trailing.line ++ e)))))) =
      some (blanks k ++ "can_id".toList ++ blanks before ++ ':' :: blanks gap, value.val,
        trailing.line ++ e) := by
  obtain ⟨value, hne, hvalue⟩ := value
  have hname := name_chars (by decide : "can_id" ∈ "motors" :: (JOINTS ++ KEYS))
  have hblank := name_stops hname.1 hname.2 (fun ch h => (word_plain h).2.1) (blanks before ++ ':' ::
    (blanks gap ++ (value ++ (trailing.line ++ e))))
  have hcolon : StopsAt is_space (':' :: (blanks gap ++ (value ++ (trailing.line ++ e)))) :=
    .cons (by decide)
  have hstart : StopsAt is_space (value ++ (trailing.line ++ e)) := by
    obtain ⟨ch, rest, rfl⟩ := List.exists_cons_of_ne_nil hne
    have hch := hvalue ch List.mem_cons_self
    unfold value_char at hch
    rw [Bool.and_eq_true, Bool.not_eq_true'] at hch
    exact .cons hch.1
  have htail := trailing_stops trailing (by decide : value_char ' ' = false) (by decide) he
  unfold can_id_line
  rw [takeWhile_stops (blanks_blank k) hblank, dropWhile_stops (blanks_blank k) hblank]
  have hblanks : blanks k ≠ [] := by
    unfold blanks
    rw [ne_eq, List.replicate_eq_nil_iff]
    omega
  have hcan_id : "can_id".toList.isPrefixOf ("can_id".toList ++ (blanks before ++ ':' ::
      (blanks gap ++ (value ++ (trailing.line ++ e))))) = true :=
    List.isPrefixOf_iff_prefix.mpr (List.prefix_append _ _)
  dsimp only
  rw [hcan_id, if_neg (by rintro (h | h); exacts [hblanks h, Bool.noConfusion h]), List.drop_left,
    takeWhile_stops (blanks_spaces before) hcolon, dropWhile_stops (blanks_spaces before) hcolon]
  refine (if_neg ?_).trans ?_
  · rw [dropWhile_stops (blanks_spaces gap) hstart, takeWhile_stops hvalue htail]
    exact hne
  · rw [takeWhile_stops (blanks_spaces gap) hstart, dropWhile_stops (blanks_spaces gap) hstart,
      takeWhile_stops hvalue htail, dropWhile_stops hvalue htail]

theorem can_id_line_other {key : String} (hkey : key ∈ KEYS) (hother : key ≠ "can_id") (k : Nat)
    (r : Text) : can_id_line (blanks k ++ (key.toList ++ r)) = none := by
  have hname := name_chars (List.mem_cons_of_mem "motors" (List.mem_append_right JOINTS hkey))
  unfold can_id_line
  rw [dropWhile_stops (blanks_blank k) (name_stops hname.1 hname.2 (fun ch h => (word_plain h).2.1) r)]
  apply if_pos
  right
  rcases List.mem_cons.mp hkey with rfl | hkey
  · exact absurd rfl hother
  rcases List.mem_pair.mp hkey with rfl | rfl
  · rfl
  · rfl

end Match

def int_token (i : Int) : Token := ⟨int_text i, by
  constructor
  · exact List.append_ne_nil_of_right_ne_nil _ Nat.toDigits_ne_nil
  · intro ch hch
    rcases List.mem_append.mp hch with hsign | hdigit
    · split at hsign
      · rw [List.mem_singleton.mp hsign]
        rfl
      · cases hsign
    · have hword : word_char ch = true := by
        unfold word_char Char.isAlphanum
        rw [Nat.isDigit_of_mem_toDigits (by omega) (by omega) hdigit, Bool.or_true, Bool.true_or]
      unfold value_char
      rw [(word_plain hword).1]
      exact bne_iff_ne.mpr (word_plain hword).2.2.1⟩

/-- The line with the new CAN ID, if it is the `can_id` line and there is one. -/
def KeyLine.replace (can_id : Option Int) (line : KeyLine) : KeyLine :=
  match can_id with
  | some can_id => if line.key = "can_id" then { line with value := int_token can_id } else line
  | none => line

def JointBlock.replace (can_ids : Dict String Int) (block : JointBlock) : JointBlock :=
  { block with body := block.body.map (Sum.map id (KeyLine.replace (can_ids.get block.joint))) }

/-- The layout in which the value of the `can_id` line alone is replaced for each mapped joint. -/
def Layout.replace (can_ids : Dict String Int) (layout : Layout) : Layout :=
  { layout with
    blocks := layout.blocks.map (JointBlock.replace can_ids)
    deeper := by
      intro block hblock
      obtain ⟨old, hold, rfl⟩ := List.mem_map.mp hblock
      exact layout.deeper old hold }

/-- The new CAN ID of the line can be printed, if it gets one. -/
def KeyLine.printable (can_id : Option Int) (line : KeyLine) : Bool :=
  match can_id with
  | some can_id => line.key != "can_id" || (str_int can_id).isSome
  | none => true

def JointBlock.printable (can_ids : Dict String Int) (block : JointBlock) : Bool :=
  block.body.all (Sum.elim (fun _ => true) (KeyLine.printable (can_ids.get block.joint)))

def Layout.printable (can_ids : Dict String Int) (layout : Layout) : Bool :=
  layout.blocks.all (JointBlock.printable can_ids)

section Follow
variable {K : Type} (can_ids : Dict String Int) {s : Scan} {k : Nat}

theorem filler_steps (filler : Filler) (s : Scan) :
    StepsTo K can_ids s filler.line true filler.line s := by
  intro e he
  apply if_pos
  cases filler with
  | blank spaces =>
    left
    have hspaces : Spaces (blanks spaces ++ e) := (blanks_spaces spaces).append he.spaces
    have hstrip : strip is_space (blanks spaces ++ e ++ []) = strip is_space [] :=
      strip_blank_append hspaces
    rw [List.append_nil] at hstrip
    exact hstrip
  | comment spaces text =>
    right
    have hstrip : stripped (blanks spaces ++ '#' :: text.val ++ e) =
        '#' :: (text.val ++ e).rdropWhile is_space := by
      unfold stripped
      rw [List.append_assoc, strip_blank_append (blanks_spaces spaces), List.cons_append,
        strip_cons (by decide)]
    exact congrArg List.head? hstrip

/-- A line with a name on it that ends as it likes. -/
theorem header_line_append (header : Header) (k : Nat) (name : String) (e : Text) :
    header.line k name ++ e = blanks k ++ (name.toList ++ (blanks header.before ++ ':' ::
      (header.trailing.line ++ e))) := by
  unfold Header.line
  rw [List.append_assoc, List.append_assoc, List.append_assoc, List.cons_append]

theorem motors_steps (header : Header) (s : Scan) :
    StepsTo K can_ids s (header.line 0 "motors") true (header.line 0 "motors")
      { s with in_motors := true, joint := none } := by
  intro e he
  obtain ⟨hne, hname⟩ := name_chars (List.mem_cons_self : "motors" ∈ "motors" :: (JOINTS ++ KEYS))
  obtain ⟨hcontent, hindent⟩ := name_line hne hname 0 (blanks header.before ++ ':' ::
    (header.trailing.line ++ e))
  rw [← header_line_append] at hcontent hindent
  unfold scan_line
  dsimp only
  rw [if_neg hcontent, if_pos hindent]
  have hmotors : stripped (partition_at ':' (stripped (header.line 0 "motors" ++ e))).1 =
      "motors".toList := by
    have hcolon : ':' ∉ "motors".toList ++ blanks header.before := by
      intro h
      rcases List.mem_append.mp h with h | h
      · exact (word_plain (hname _ h)).2.2.2 rfl
      · exact absurd (List.eq_of_mem_replicate h) (by decide)
    obtain ⟨ch, rest, hcons⟩ := List.exists_cons_of_ne_nil hne
    have hstrip : stripped (header.line 0 "motors" ++ e) = "motors".toList ++ blanks header.before ++
        ':' :: (header.trailing.line ++ e).rdropWhile is_space := by
      have hch : is_space ch = false := (word_plain (hname ch (hcons ▸ List.mem_cons_self))).1
      rw [header_line_append, ← List.append_assoc "motors".toList, hcons]
      unfold stripped
      rw [strip_blank_append (blanks_spaces 0), List.cons_append, List.cons_append, strip_cons hch,
        rdropWhile_append_cons _ (by decide)]
      rfl
    rw [hstrip, partition_at_cons hcolon]
    show strip is_space ("motors".toList ++ blanks header.before) = _
    rw [strip_append_blank (blanks_spaces _)]
    exact strip_of_no_space fun ch hch => (word_plain (hname ch hch)).1
  rw [hmotors]
  rfl

/-- The header of a joint. -/
theorem header_steps {joint : String} (hjoint : joint ∈ JOINTS) (header : Header) (hk : 0 < k)
    (hin : s.in_motors = true) (hindent : s.joint_indent = none ∨ s.joint_indent = some k) :
    StepsTo K can_ids s (header.line k joint) true (header.line k joint)
      { s with joint_indent := some k, joint := some joint.toList } := by
  intro e he
  obtain ⟨hne, hname⟩ := name_chars (List.mem_cons_of_mem "motors" (List.mem_append_left KEYS hjoint))
  obtain ⟨hcontent, hlevel⟩ := name_line hne hname k (blanks header.before ++ ':' ::
    (header.trailing.line ++ e))
  have hmatch := joint_line_header hne hname k header.before header.trailing he
  rw [← header_line_append] at hcontent hlevel hmatch
  have hsame : s.joint_indent.getD k = k := by
    rcases hindent with h | h
    · rw [h]
      rfl
    · rw [h]
      rfl
  unfold scan_line
  dsimp only
  rw [if_neg hcontent, hlevel, if_neg (by omega), if_neg (by rw [hin]; exact Bool.noConfusion), hsame,
    if_pos rfl, hmatch]
  rfl

theorem key_line_append (line : KeyLine) (k : Nat) (e : Text) :
    line.line k ++ e = blanks k ++ (line.key.toList ++ (blanks line.before ++ ':' ::
      (blanks line.gap ++ (line.value.val ++ (line.trailing.line ++ e))))) := by
  unfold KeyLine.line
  simp only [List.append_assoc, List.cons_append]

theorem rewrite_key_line {joint : String} (hk : 0 < k) (line : KeyLine) {e : Text} (he : Ends e) :
    (rewrite_line can_ids (some joint.toList) (line.line k ++ e) : Except (Exception K) Text) =
      printed (line.printable (can_ids.get joint))
        ((line.replace (can_ids.get joint)).line k ++ e) := by
  obtain ⟨key, known, before, gap, gap_pos, value, trailing⟩ := line
  unfold rewrite_line KeyLine.printable KeyLine.replace
  rw [Option.bind_some, String.ofList_toList]
  by_cases hkey : key = "can_id"
  · subst hkey
    have hmatch := can_id_line_value hk before gap value trailing he
    rw [key_line_append, hmatch]
    cases can_ids.get joint with
    | none =>
      dsimp only
      rw [key_line_append]
      rfl
    | some can_id =>
      dsimp only
      rw [if_pos rfl, bne_self_eq_false, Bool.false_or, key_line_append]
      simp only [List.append_assoc, List.cons_append]
      rfl
  · have hmatch := can_id_line_other known hkey k (blanks before ++ ':' ::
      (blanks gap ++ (value.val ++ (trailing.line ++ e))))
    rw [key_line_append, hmatch]
    cases can_ids.get joint with
    | none =>
      dsimp only
      rw [key_line_append]
      rfl
    | some can_id =>
      dsimp only
      rw [if_neg hkey, bne_iff_ne.mpr hkey, key_line_append]
      rfl

theorem key_steps {joint : String} {indent : Nat} (hin : s.in_motors = true)
    (hindent : s.joint_indent = some k) (hjoint : s.joint = some joint.toList) (hk : k < indent)
    (line : KeyLine) : StepsTo K can_ids s (line.line indent) (line.printable (can_ids.get joint))
      ((line.replace (can_ids.get joint)).line indent) s := by
  intro e he
  obtain ⟨hne, hname⟩ :=
    name_chars (List.mem_cons_of_mem "motors" (List.mem_append_right JOINTS line.known))
  obtain ⟨hcontent, hlevel⟩ := name_line hne hname indent (blanks line.before ++ ':' ::
    (blanks line.gap ++ (line.value.val ++ (line.trailing.line ++ e))))
  rw [← key_line_append] at hcontent hlevel
  obtain ⟨in_motors, joint_indent, scanned⟩ := s
  dsimp only at hin hindent hjoint
  subst hin hindent hjoint
  unfold scan_line
  dsimp only
  rw [if_neg hcontent, hlevel, if_neg (by omega), if_neg Bool.noConfusion, Option.getD_some,
    if_neg (by omega), rewrite_key_line can_ids (by omega) line he]
  cases line.printable (can_ids.get joint) <;> rfl

/-- The scanner leaves a layout behind in which the values alone are replaced. -/
theorem body_runs {joint : String} {indent : Nat} (hin : s.in_motors = true)
    (hindent : s.joint_indent = some k) (hjoint : s.joint = some joint.toList) (hk : k < indent)
    (body : List (Filler ⊕ KeyLine)) :
    RunsTo K can_ids s (body.map (Sum.elim Filler.line (KeyLine.line indent)))
      (body.all (Sum.elim (fun _ => true) (KeyLine.printable (can_ids.get joint))))
      ((body.map (Sum.map id (KeyLine.replace (can_ids.get joint)))).map
        (Sum.elim Filler.line (KeyLine.line indent))) s := by
  induction body with
  | nil => exact .nil s
  | cons item body ih =>
    cases item with
    | inl filler => exact .cons (filler_steps can_ids filler s) ih
    | inr line => exact .cons (key_steps can_ids hin hindent hjoint hk line) ih

theorem fillers_run (fillers : List Filler) (s : Scan) :
    RunsTo K can_ids s (fillers.map Filler.line) true (fillers.map Filler.line) s := by
  induction fillers with
  | nil => exact .nil s
  | cons filler fillers ih => exact .cons (filler_steps can_ids filler s) ih

theorem blocks_run {blocks : List JointBlock} (hk : 0 < k) (hdeeper : ∀ block ∈ blocks, k < block.indent)
    (hin : s.in_motors = true) (hindent : s.joint_indent = none ∨ s.joint_indent = some k) :
    ∃ s', RunsTo K can_ids s (blocks.flatMap (JointBlock.lines k))
      (blocks.all (JointBlock.printable can_ids))
      ((blocks.map (JointBlock.replace can_ids)).flatMap (JointBlock.lines k)) s' := by
  induction blocks generalizing s with
  | nil => exact ⟨s, .nil s⟩
  | cons block blocks ih =>
    obtain ⟨s', hrest⟩ := ih (fun b hb => hdeeper b (List.mem_cons_of_mem _ hb))
      (s := { s with joint_indent := some k, joint := some block.joint.toList }) hin (.inr rfl)
    have hheader := header_steps (K := K) can_ids block.known block.header hk hin hindent
    have hbody := body_runs (K := K) can_ids
      (s := { s with joint_indent := some k, joint := some block.joint.toList }) hin rfl rfl
      (hdeeper block List.mem_cons_self) block.body
    refine ⟨s', ?_⟩
    rw [List.flatMap_cons, List.map_cons, List.flatMap_cons, List.all_cons]
    exact (RunsTo.cons hheader hbody).append hrest

theorem layout_runs (layout : Layout) (h : layout.column = 0) : ∃ s', RunsTo K can_ids {} layout.lines
    (layout.printable can_ids) (layout.replace can_ids).lines s' := by
  have hk : 0 < layout.joint_indent := h ▸ layout.under_motors
  obtain ⟨s', hblocks⟩ := blocks_run (K := K) can_ids
    (s := { ({} : Scan) with in_motors := true, joint := none }) hk layout.deeper rfl (.inl rfl)
  have hmotors : StepsTo K can_ids {} (layout.header.line layout.column "motors") true
      (layout.header.line layout.column "motors") { ({} : Scan) with in_motors := true, joint := none } := by
    rw [h]
    exact motors_steps can_ids layout.header {}
  refine ⟨s', ?_⟩
  exact (fillers_run can_ids layout.top {}).append
    (.cons hmotors ((fillers_run can_ids layout.lead _).append hblocks))

/-- Outside the `motors` block an indented line is passed over. -/
theorem outside_steps {name : String} (hname : name ∈ "motors" :: (JOINTS ++ KEYS)) (hk : 0 < k)
    (hin : s.in_motors = false) (r : Text) :
    StepsTo K can_ids s (blanks k ++ (name.toList ++ r)) true (blanks k ++ (name.toList ++ r)) s := by
  intro e he
  obtain ⟨hne, hchars⟩ := name_chars hname
  obtain ⟨hcontent, hlevel⟩ := name_line hne hchars k (r ++ e)
  rw [← List.append_assoc, ← List.append_assoc, List.append_assoc (blanks k)] at hcontent hlevel
  unfold scan_line
  dsimp only
  rw [if_neg hcontent, hlevel, if_neg (by omega), if_pos hin]
  rfl

theorem outside_header {name : String} (hname : name ∈ "motors" :: (JOINTS ++ KEYS)) (hk : 0 < k)
    (hin : s.in_motors = false) (header : Header) :
    StepsTo K can_ids s (header.line k name) true (header.line k name) s :=
  outside_steps can_ids hname hk hin _

theorem outside_body {indent : Nat} (hk : 0 < indent) (hin : s.in_motors = false)
    (body : List (Filler ⊕ KeyLine)) :
    RunsTo K can_ids s (body.map (Sum.elim Filler.line (KeyLine.line indent))) true
      (body.map (Sum.elim Filler.line (KeyLine.line indent))) s := by
  induction body with
  | nil => exact .nil s
  | cons item body ih =>
    cases item with
    | inl filler => exact .cons (filler_steps can_ids filler s) ih
    | inr line =>
      have hknown := List.mem_cons_of_mem "motors" (List.mem_append_right JOINTS line.known)
      exact .cons (outside_steps can_ids hknown hk hin _) ih

theorem outside_blocks {blocks : List JointBlock} (hk : 0 < k) (hdeeper : ∀ block ∈ blocks, k < block.indent)
    (hin : s.in_motors = false) : RunsTo K can_ids s (blocks.flatMap (JointBlock.lines k)) true
      (blocks.flatMap (JointBlock.lines k)) s := by
  induction blocks with
  | nil => exact .nil s
  | cons block blocks ih =>
    have hknown := List.mem_cons_of_mem "motors" (List.mem_append_left KEYS block.known)
    have hbody := outside_body (K := K) can_ids
      (Nat.lt_trans hk (hdeeper block List.mem_cons_self)) hin block.body
    rw [List.flatMap_cons]
    exact (RunsTo.cons (outside_header can_ids hknown hk hin block.header) hbody).append
      (ih fun b hb => hdeeper b (List.mem_cons_of_mem _ hb))

theorem indented_runs (layout : Layout) (h : 0 < layout.column) :
    RunsTo K can_ids {} layout.lines true layout.lines {} := by
  have hmotors := outside_header (K := K) can_ids (s := {}) List.mem_cons_self h rfl layout.header
  have hblocks := outside_blocks (K := K) can_ids (s := {})
    (Nat.lt_trans h layout.under_motors) layout.deeper rfl
  exact (fillers_run can_ids layout.top {}).append
    (.cons hmotors ((fillers_run can_ids layout.lead {}).append hblocks))

theorem value_no_break {ch : Char} (h : value_char ch = true) : is_break ch = false := by
  unfold value_char at h
  rw [Bool.and_eq_true, Bool.not_eq_true'] at h
  have hspace := h.1
  unfold is_space at hspace
  unfold is_break
  simp only [Bool.or_eq_false_iff, Bool.and_eq_false_iff, decide_eq_false_iff_not,
    beq_eq_false_iff_ne] at hspace ⊢
  omega

theorem word_no_break {ch : Char} (h : word_char ch = true) : is_break ch = false := by
  apply value_no_break
  unfold value_char
  rw [(word_plain h).1]
  exact bne_iff_ne.mpr (word_plain h).2.2.1

/-- A text that stays on its line. -/
def OneLine (text : Text) : Prop := ∀ ch ∈ text, is_break ch = false

theorem OneLine.append {first second : Text} (h : OneLine first) (h' : OneLine second) :
    OneLine (first ++ second) := by
  intro ch hch
  rcases List.mem_append.mp hch with hch | hch
  · exact h ch hch
  · exact h' ch hch

theorem OneLine.cons {ch : Char} {text : Text} (hch : is_break ch = false) (h : OneLine text) :
    OneLine (ch :: text) := by
  intro c hc
  rcases List.mem_cons.mp hc with rfl | hc
  · exact hch
  · exact h c hc

theorem blanks_one_line (n : Nat) : OneLine (blanks n) := by
  intro ch hch
  rw [List.eq_of_mem_replicate hch]
  rfl

theorem trailing_one_line (trailing : Trailing) : OneLine trailing.line := by
  unfold Trailing.line
  apply (blanks_one_line _).append
  cases trailing.comment with
  | none => exact fun _ h => absurd h List.not_mem_nil
  | some comment => exact .cons (by decide) comment.property

theorem filler_one_line (filler : Filler) : OneLine filler.line := by
  cases filler with
  | blank spaces => exact blanks_one_line spaces
  | comment spaces text => exact (blanks_one_line spaces).append (.cons (by decide) text.property)

theorem header_one_line {name : String} (hname : name ∈ "motors" :: (JOINTS ++ KEYS)) (header : Header)
    (k : Nat) : OneLine (header.line k name) :=
  (blanks_one_line k).append (OneLine.append (fun ch h => word_no_break ((name_chars hname).2 ch h))
    ((blanks_one_line _).append (.cons (by decide) (trailing_one_line _))))

theorem key_one_line (line : KeyLine) (k : Nat) : OneLine (line.line k) := by
  have hname := name_chars (List.mem_cons_of_mem "motors" (List.mem_append_right JOINTS line.known))
  refine (blanks_one_line k).append (OneLine.append (fun ch h => word_no_break (hname.2 ch h))
    ((blanks_one_line _).append (.cons (by decide) ((blanks_one_line _).append (OneLine.append ?_
      (trailing_one_line _))))))
  exact fun ch h => value_no_break (line.value.property.2 ch h)

theorem lines_one_line (layout : Layout) : ∀ line ∈ layout.lines, OneLine line := by
  intro line hline
  rcases List.mem_append.mp hline with hline | hline
  · obtain ⟨filler, -, rfl⟩ := List.mem_map.mp hline
    exact filler_one_line filler
  rcases List.mem_cons.mp hline with rfl | hline
  · exact header_one_line List.mem_cons_self _ _
  rcases List.mem_append.mp hline with hline | hline
  · obtain ⟨filler, -, rfl⟩ := List.mem_map.mp hline
    exact filler_one_line filler
  obtain ⟨block, -, hline⟩ := List.mem_flatMap.mp hline
  rcases List.mem_cons.mp hline with rfl | hline
  · exact header_one_line (List.mem_cons_of_mem _ (List.mem_append_left _ block.known)) _ _
  obtain ⟨item, -, rfl⟩ := List.mem_map.mp hline
  cases item with
  | inl filler => exact filler_one_line filler
  | inr line => exact key_one_line line _

theorem splitlines_text (layout : Layout) {final : Bool} (h : layout.Ended final) :
    splitlines (layout.text final) = closed_lines '\n' final layout.lines :=
  split_lines_ended (by decide) (fun _ => rfl) (lines_one_line layout) h

/-- In a text in block style the values of the mapped joints are replaced, and nothing else. -/
theorem rewrite_text_layout (layout : Layout) {final : Bool} (hcolumn : layout.column = 0)
    (h : layout.Ended final) :
    (rewrite_text can_ids (layout.text final) : Except (Exception K) Text) =
      printed (layout.printable can_ids) ((layout.replace can_ids).text final) := by
  obtain ⟨s', hruns⟩ := layout_runs (K := K) can_ids layout hcolumn
  unfold rewrite_text
  rw [splitlines_text layout h, hruns.scan_lines final]
  cases layout.printable can_ids <;> rfl

/-- A text that is indented as a whole stays as it is. -/
theorem rewrite_text_indented (layout : Layout) {final : Bool} (hcolumn : 0 < layout.column)
    (h : layout.Ended final) :
    (rewrite_text can_ids (layout.text final) : Except (Exception K) Text) =
      .ok (layout.text final) := by
  unfold rewrite_text
  rw [splitlines_text layout h, (indented_runs (K := K) can_ids layout hcolumn).scan_lines final]
  rfl

end Follow

end IotRobot.Tool
