import IotRobot.Tool.Identify

/-!
# The question of identify

`ask_joint` goes on until a reply is acceptable. A reply of digits that `int` rejects ends it
with an exception, unless an acceptable one comes before it.
-/

namespace IotRobot.Tool

open Lib Prog Can
open Stm32 (Text stripped)

set_option autoImplicit false

section Question
variable (unicode : Char → CharKind) (can_id : Nat) (joints : List String)
  (assigned : Dict String Nat)

def letters : List Text := [['r'], ['s'], ['q']]

/-- Digits that `int` rejects: too many of them, or one that is no decimal. -/
def Unreadable (reply : Text) : Prop :=
  reply ∉ letters ∧ isdigit unicode reply = true ∧
    (MAX_STR_DIGITS < reply.length ∨ ∃ ch ∈ reply, ∀ value, unicode ch ≠ .decimal value)

/-- A reply that is the number of a joint. -/
def Numbers (K : Type) (reply : Text) (number : Nat) : Prop :=
  isdigit unicode reply = true ∧
    (int_of_digits unicode reply : Except (Exception K) Nat) = .ok number ∧
    1 ≤ number ∧ number ≤ joints.length

/-- A reply names a joint by its number, or else by its name. -/
def Names (K : Type) (reply : Text) (joint : String) : Prop :=
  (∃ number, Numbers unicode joints K reply number ∧ joints[number - 1]? = some joint) ∨
  (∀ number, ¬ Numbers unicode joints K reply number) ∧ String.ofList reply = joint ∧ joint ∈ joints

/-- The joint has no motor, or the motor that moved. -/
def Free (joint : String) : Prop := ∀ owner, assigned.get joint = some owner → owner = can_id

/-- The answers that the function may give. -/
def Permitted (answer : Answer) : Prop :=
  answer = .repeat_ ∨ answer = .choice .skip ∨ answer = .choice .quit ∨
    ∃ joint ∈ joints, Free can_id assigned joint ∧ answer = .choice (.joint joint)

/-- An acceptable reply and its answer. -/
def Accepts (K : Type) (text : Text) (answer : Answer) : Prop :=
  (stripped text = ['r'] ∧ answer = .repeat_) ∨ (stripped text = ['s'] ∧ answer = .choice .skip) ∨
  (stripped text = ['q'] ∧ answer = .choice .quit) ∨
  (stripped text ∉ letters ∧ ∃ joint, Names unicode joints K (stripped text) joint ∧
    Free can_id assigned joint ∧ answer = .choice (.joint joint))

variable {unicode can_id joints assigned} {K : Type}

theorem Names.mem {reply : Text} {joint : String} (h : Names unicode joints K reply joint) :
    joint ∈ joints := by
  rcases h with ⟨number, -, hjoint⟩ | ⟨-, -, hjoint⟩
  · exact List.mem_of_getElem? hjoint
  · exact hjoint

theorem Accepts.permitted {text : Text} {answer : Answer}
    (h : Accepts unicode can_id joints assigned K text answer) : Permitted can_id joints assigned answer := by
  rcases h with ⟨-, h⟩ | ⟨-, h⟩ | ⟨-, h⟩ | ⟨-, joint, hnames, hfree, h⟩
  · exact .inl h
  · exact .inr (.inl h)
  · exact .inr (.inr (.inl h))
  · exact .inr (.inr (.inr ⟨joint, hnames.mem, hfree, h⟩))

theorem foldlM_total {α β ε : Type} {f : β → α → Except ε β} {l : List α}
    (h : ∀ x ∈ l, ∀ b, ∃ b', f b x = .ok b') (b : β) : ∃ b', l.foldlM f b = .ok b' := by
  induction l generalizing b with
  | nil => exact ⟨b, rfl⟩
  | cons x l ih =>
    obtain ⟨b', hb'⟩ := h x List.mem_cons_self b
    rw [List.foldlM_cons, hb']
    exact ih (fun y hy => h y (List.mem_cons_of_mem _ hy)) b'

/-- A step that fails wherever it stands. -/
theorem foldlM_fails {α β ε : Type} {f : β → α → Except ε β} {l : List α} {x : α} (hx : x ∈ l)
    (h : ∀ b, ∃ e, f b x = .error e) (b : β) : ∃ e, l.foldlM f b = .error e := by
  induction l generalizing b with
  | nil => exact absurd hx List.not_mem_nil
  | cons y l ih =>
    rw [List.foldlM_cons]
    cases hy : f b y with
    | error e => exact ⟨e, rfl⟩
    | ok b' =>
      rcases List.mem_cons.mp hx with rfl | hx
      · obtain ⟨e, he⟩ := h b
        cases hy.symm.trans he
      · exact ih hx b'

theorem int_of_digits_total {reply : Text} (hlong : ¬ MAX_STR_DIGITS < reply.length)
    (hdecimal : ∀ ch ∈ reply, ∃ value, unicode ch = .decimal value) :
    ∃ number, (int_of_digits unicode reply : Except (Exception K) Nat) = .ok number := by
  unfold int_of_digits
  rw [if_neg hlong]
  refine foldlM_total (fun ch hch number => ?_) 0
  obtain ⟨value, hvalue⟩ := hdecimal ch hch
  exact ⟨10 * number + value, by rw [hvalue]⟩

/-- `int` rejects just the digits that are too many or no decimals. -/
theorem int_of_digits_error_iff (reply : Text) :
    (∃ e, (int_of_digits unicode reply : Except (Exception K) Nat) = .error e) ↔
      MAX_STR_DIGITS < reply.length ∨ ∃ ch ∈ reply, ∀ value, unicode ch ≠ .decimal value := by
  constructor
  · rintro ⟨e, he⟩
    by_contra hnone
    obtain ⟨hlong, hdecimal⟩ := not_or.mp hnone
    obtain ⟨number, hnumber⟩ := int_of_digits_total (K := K) hlong fun ch hch => by
      by_contra hno
      exact hdecimal ⟨ch, hch, fun value hvalue => hno ⟨value, hvalue⟩⟩
    cases he.symm.trans hnumber
  · intro h
    unfold int_of_digits
    by_cases hlong : MAX_STR_DIGITS < reply.length
    · rw [if_pos hlong]
      exact ⟨_, rfl⟩
    rw [if_neg hlong]
    obtain ⟨ch, hch, hno⟩ := h.resolve_left hlong
    refine foldlM_fails hch (fun number => ?_) 0
    cases hkind : unicode ch with
    | decimal value => exact absurd hkind (hno value)
    | digit => exact ⟨_, rfl⟩
    | other => exact ⟨_, rfl⟩

/-- The joint with the name of the reply. -/
def listed (joints : List String) (reply : Text) : Option String :=
  if String.ofList reply ∈ joints then some (String.ofList reply) else none

theorem listed_iff (reply : Text) (joint : String) :
    listed joints reply = some joint ↔ String.ofList reply = joint ∧ joint ∈ joints := by
  unfold listed
  by_cases h : String.ofList reply ∈ joints
  · rw [if_pos h, Option.some_inj]
    exact ⟨fun heq => ⟨heq, heq ▸ h⟩, And.left⟩
  · rw [if_neg h]
    refine iff_of_false (by rintro ⟨⟩) ?_
    rintro ⟨rfl, hmem⟩
    exact h hmem

theorem named_joint_unnumbered {reply : Text} (hdigit : isdigit unicode reply = false) :
    (named_joint unicode joints reply : Except (Exception K) _) = .ok (listed joints reply) := by
  unfold named_joint reply_number listed
  rw [hdigit]
  rfl

theorem named_joint_numbered {reply : Text} {number : Nat} (hdigit : isdigit unicode reply = true)
    (hnumber : (int_of_digits unicode reply : Except (Exception K) Nat) = .ok number) :
    (named_joint unicode joints reply : Except (Exception K) _) =
      .ok (if 1 ≤ number ∧ number ≤ joints.length then joints[number - 1]? else listed joints reply) := by
  unfold named_joint reply_number listed
  rw [hdigit, if_pos rfl, hnumber]
  by_cases hrange : 1 ≤ number ∧ number ≤ joints.length
  · rw [if_pos hrange]
    exact if_pos hrange
  · rw [if_neg hrange]
    exact if_neg hrange

theorem named_joint_raises {reply : Text} {e : Exception K} (hdigit : isdigit unicode reply = true)
    (he : int_of_digits unicode reply = .error e) : named_joint unicode joints reply = .error e := by
  unfold named_joint reply_number
  rw [hdigit, if_pos rfl, he]
  rfl

/-- What a reply that can be read names. -/
theorem named_joint_spec {reply : Text}
    (h : isdigit unicode reply = true → ∃ number,
      (int_of_digits unicode reply : Except (Exception K) Nat) = .ok number) :
    ∃ named, (named_joint unicode joints reply : Except (Exception K) _) = .ok named ∧
      ∀ joint, named = some joint ↔ Names unicode joints K reply joint := by
  unfold Names
  cases hdigit : isdigit unicode reply with
  | false =>
    have hnone (number : Nat) : ¬ Numbers unicode joints K reply number := by
      rintro ⟨htrue, -⟩
      cases hdigit.symm.trans htrue
    refine ⟨_, named_joint_unnumbered hdigit, fun joint => ?_⟩
    rw [listed_iff]
    constructor
    · exact fun hlisted => .inr ⟨hnone, hlisted⟩
    · rintro (⟨number, hnumber, -⟩ | ⟨-, hlisted⟩)
      · exact absurd hnumber (hnone number)
      · exact hlisted
  | true =>
    obtain ⟨number, hnumber⟩ := h hdigit
    have honly {other : Nat} (hother : Numbers unicode joints K reply other) : other = number :=
      Except.ok.inj (hother.2.1.symm.trans hnumber)
    refine ⟨_, named_joint_numbered hdigit hnumber, fun joint => ?_⟩
    by_cases hrange : 1 ≤ number ∧ number ≤ joints.length
    · have hnumbers : Numbers unicode joints K reply number := ⟨hdigit, hnumber, hrange⟩
      rw [if_pos hrange]
      constructor
      · exact fun hjoint => .inl ⟨number, hnumbers, hjoint⟩
      · rintro (⟨other, hother, hjoint⟩ | ⟨hnone, -⟩)
        · exact honly hother ▸ hjoint
        · exact absurd hnumbers (hnone number)
    · have hnone (other : Nat) : ¬ Numbers unicode joints K reply other := by
        intro hother
        exact hrange (honly hother ▸ hother.2.2)
      rw [if_neg hrange, listed_iff]
      constructor
      · exact fun hlisted => .inr ⟨hnone, hlisted⟩
      · rintro (⟨other, hother, -⟩ | ⟨-, hlisted⟩)
        · exact absurd hother (hnone other)
        · exact hlisted

theorem letters_iff (reply : Text) :
    reply ∈ letters ↔ reply = ['r'] ∨ reply = ['s'] ∨ reply = ['q'] := by
  unfold letters
  rw [List.mem_cons, List.mem_cons, List.mem_singleton]

theorem understand_letter {text : Text} (h : stripped text ∈ letters) : ∃ answer,
    (understand unicode can_id joints assigned text : Except (Exception K) _) = .ok (some answer) ∧
      ∀ other, answer = other ↔ Accepts unicode can_id joints assigned K text other := by
  unfold understand Accepts
  dsimp only
  rcases (letters_iff _).mp h with hr | hs | hq
  · rw [hr]
    refine ⟨.repeat_, rfl, fun other => ?_⟩
    simp [letters, eq_comm]
  · rw [hs]
    refine ⟨.choice .skip, rfl, fun other => ?_⟩
    simp [letters, eq_comm]
  · rw [hq]
    refine ⟨.choice .quit, rfl, fun other => ?_⟩
    simp [letters, eq_comm]

/-- Every other reply is about a joint. -/
theorem accepts_joint_iff {text : Text} (h : stripped text ∉ letters) (answer : Answer) :
    Accepts unicode can_id joints assigned K text answer ↔ ∃ joint,
      Names unicode joints K (stripped text) joint ∧ Free can_id assigned joint ∧
        answer = .choice (.joint joint) := by
  rw [letters_iff, not_or, not_or] at h
  unfold Accepts
  rw [letters_iff]
  simp [h.1, h.2.1, h.2.2]

theorem understand_unreadable {text : Text} (h : Unreadable unicode (stripped text)) :
    ∃ e, (understand unicode can_id joints assigned text : Except (Exception K) _) = .error e := by
  obtain ⟨hletter, hdigit, hrejected⟩ := h
  rw [letters_iff, not_or, not_or] at hletter
  obtain ⟨e, he⟩ := (int_of_digits_error_iff (K := K) _).mpr hrejected
  refine ⟨e, ?_⟩
  unfold understand
  dsimp only
  rw [if_neg hletter.1, if_neg hletter.2.1, if_neg hletter.2.2, named_joint_raises hdigit he]
  rfl

/-- A reply that can be read is accepted or asked again. -/
theorem understand_readable {text : Text} (h : ¬ Unreadable unicode (stripped text)) : ∃ answered,
    (understand unicode can_id joints assigned text : Except (Exception K) _) = .ok answered ∧
      ∀ answer, answered = some answer ↔ Accepts unicode can_id joints assigned K text answer := by
  by_cases hletter : stripped text ∈ letters
  · obtain ⟨answer, hanswer, haccepts⟩ := understand_letter (K := K) hletter
    refine ⟨some answer, hanswer, fun other => ?_⟩
    rw [Option.some_inj]
    exact haccepts other
  have hread : isdigit unicode (stripped text) = true → ∃ number,
      (int_of_digits unicode (stripped text) : Except (Exception K) Nat) = .ok number := by
    intro hdigit
    cases hnumber : (int_of_digits unicode (stripped text) : Except (Exception K) Nat) with
    | ok number => exact ⟨number, rfl⟩
    | error e => exact absurd ⟨hletter, hdigit, (int_of_digits_error_iff _).mp ⟨e, hnumber⟩⟩ h
  obtain ⟨named, hnamed, hnames⟩ : ∃ named,
      (named_joint unicode joints (stripped text) : Except (Exception K) _) = .ok named ∧
        ∀ joint, named = some joint ↔ Names unicode joints K (stripped text) joint :=
    named_joint_spec hread
  simp only [accepts_joint_iff hletter]
  rw [letters_iff, not_or, not_or] at hletter
  unfold understand
  dsimp only
  rw [if_neg hletter.1, if_neg hletter.2.1, if_neg hletter.2.2, hnamed]
  cases named with
  | none =>
    refine ⟨none, rfl, fun answer => iff_of_false (by rintro ⟨⟩) ?_⟩
    rintro ⟨joint, hjoint, -⟩
    cases (hnames joint).mpr hjoint
  | some joint =>
    have honly {other : String} (hother : Names unicode joints K (stripped text) other) :
        other = joint := (Option.some.inj ((hnames other).mpr hother)).symm
    have hjoint := (hnames joint).mp rfl
    by_cases hfree : Free can_id assigned joint
    · refine ⟨some (.choice (.joint joint)), ?_, fun answer => ?_⟩
      · simp only [bind, Except.bind]
        cases howner : assigned.get joint with
        | none => rfl
        | some owner =>
          dsimp only
          rw [if_neg (not_not.mpr (hfree owner howner))]
          rfl
      · rw [Option.some_inj]
        constructor
        · rintro rfl
          exact ⟨joint, hjoint, hfree, rfl⟩
        · rintro ⟨other, hother, -, rfl⟩
          rw [honly hother]
    · refine ⟨none, ?_, fun answer => iff_of_false (by rintro ⟨⟩) ?_⟩
      · simp only [bind, Except.bind]
        cases howner : assigned.get joint with
        | none =>
          refine absurd (fun owner hown => ?_) hfree
          cases howner.symm.trans hown
        | some owner =>
          have htaken : owner ≠ can_id := by
            rintro rfl
            exact hfree fun other hother => Option.some.inj (hother.symm.trans howner)
          dsimp only
          rw [if_pos htaken]
          rfl
      · rintro ⟨other, hother, hfree', -⟩
        exact hfree (honly hother ▸ hfree')

/-- Lines of text, then the end of the input. -/
def typed (K : Type) (texts : List Text) : List (Reply K) := texts.map .line ++ [.eof]

theorem ask_joint_raises {text : Text} {e : Exception K} (texts : List Text)
    (h : understand unicode can_id joints assigned text = .error e) :
    ask_joint unicode can_id joints assigned (typed K (text :: texts)) = (.raised e, typed K texts) := by
  unfold typed
  rw [List.map_cons, List.cons_append, ask_joint, h]

theorem ask_joint_returns {text : Text} {answer : Answer} (texts : List Text)
    (h : (understand unicode can_id joints assigned text : Except (Exception K) _) = .ok (some answer)) :
    ask_joint unicode can_id joints assigned (typed K (text :: texts)) =
      (.returned answer, typed K texts) := by
  unfold typed
  rw [List.map_cons, List.cons_append, ask_joint, h]

theorem ask_joint_asks_again {text : Text} (texts : List Text)
    (h : (understand unicode can_id joints assigned text : Except (Exception K) _) = .ok none) :
    ask_joint unicode can_id joints assigned (typed K (text :: texts)) =
      ask_joint unicode can_id joints assigned (typed K texts) := by
  unfold typed
  rw [List.map_cons, List.cons_append, ask_joint, h]

variable (unicode can_id joints assigned) (K)

/-- The reply is not acceptable. -/
def Rejected (text : Text) : Prop := ∀ answer, ¬ Accepts unicode can_id joints assigned K text answer

/-- The answer is that of the first acceptable reply, and the replies behind it are left; without
an acceptable reply it is to quit. -/
def UpToFirst (texts : List Text) (answer : Answer) (rest : List (Reply K)) : Prop :=
  (∃ before text after, texts = before ++ text :: after ∧ rest = typed K after ∧
    (∀ earlier ∈ before, Rejected unicode can_id joints assigned K earlier) ∧
    Accepts unicode can_id joints assigned K text answer) ∨
  (answer = .choice .quit ∧ rest = [] ∧
    ∀ text ∈ texts, Rejected unicode can_id joints assigned K text)

/-- The question returns a permitted answer, the one of the first acceptable reply. -/
def Answered (texts : List Text) : Prop :=
  ∃ answer rest, ask_joint unicode can_id joints assigned (typed K texts) = (.returned answer, rest) ∧
    Permitted can_id joints assigned answer ∧
    UpToFirst unicode can_id joints assigned K texts answer rest

/-- Every reply of digits that `int` rejects comes after an acceptable one. -/
def ReadUpToFirst (texts : List Text) : Prop :=
  ∀ before text after, texts = before ++ text :: after → Unreadable unicode (stripped text) →
    ∃ earlier ∈ before, ¬ Rejected unicode can_id joints assigned K earlier

variable {unicode can_id joints assigned K} {text : Text} {texts : List Text}

theorem readUpToFirst_unreadable (h : Unreadable unicode (stripped text)) :
    ¬ ReadUpToFirst unicode can_id joints assigned K (text :: texts) := by
  intro hread
  obtain ⟨earlier, hmem, -⟩ := hread [] text texts rfl h
  exact absurd hmem List.not_mem_nil

theorem readUpToFirst_accepted (h : ¬ Unreadable unicode (stripped text))
    (haccepted : ¬ Rejected unicode can_id joints assigned K text) :
    ReadUpToFirst unicode can_id joints assigned K (text :: texts) := by
  rintro (_ | ⟨first, before⟩) other after heq hunreadable
  · obtain ⟨rfl, -⟩ := List.cons.inj heq
    exact absurd hunreadable h
  · obtain ⟨rfl, -⟩ := List.cons.inj heq
    exact ⟨text, List.mem_cons_self, haccepted⟩

theorem readUpToFirst_rejected (h : ¬ Unreadable unicode (stripped text))
    (hrejected : Rejected unicode can_id joints assigned K text) :
    ReadUpToFirst unicode can_id joints assigned K (text :: texts) ↔
      ReadUpToFirst unicode can_id joints assigned K texts := by
  constructor
  · intro hread before other after heq hunreadable
    obtain ⟨earlier, hmem, haccepted⟩ := hread (text :: before) other after (by rw [heq]; rfl) hunreadable
    rcases List.mem_cons.mp hmem with rfl | hmem
    · exact absurd hrejected haccepted
    · exact ⟨earlier, hmem, haccepted⟩
  · rintro hread (_ | ⟨first, before⟩) other after heq hunreadable
    · obtain ⟨rfl, -⟩ := List.cons.inj heq
      exact absurd hunreadable h
    · obtain ⟨-, hrest⟩ := List.cons.inj heq
      obtain ⟨earlier, hmem, haccepted⟩ := hread before other after hrest hunreadable
      exact ⟨earlier, List.mem_cons_of_mem _ hmem, haccepted⟩

theorem answered_rejected (hrejected : Rejected unicode can_id joints assigned K text)
    (hagain : (understand unicode can_id joints assigned text : Except (Exception K) _) = .ok none) :
    Answered unicode can_id joints assigned K (text :: texts) ↔
      Answered unicode can_id joints assigned K texts := by
  have hfirst (answer : Answer) (rest : List (Reply K)) :
      UpToFirst unicode can_id joints assigned K (text :: texts) answer rest ↔
        UpToFirst unicode can_id joints assigned K texts answer rest := by
    unfold UpToFirst
    constructor
    · rintro (⟨_ | ⟨first, before⟩, other, after, heq, hrest, hbefore, haccepts⟩ | ⟨hquit, hrest, hall⟩)
      · obtain ⟨rfl, -⟩ := List.cons.inj heq
        exact absurd haccepts (hrejected answer)
      · exact .inl ⟨before, other, after, (List.cons.inj heq).2, hrest,
          fun earlier hmem => hbefore earlier (List.mem_cons_of_mem _ hmem), haccepts⟩
      · exact .inr ⟨hquit, hrest, fun other hmem => hall other (List.mem_cons_of_mem _ hmem)⟩
    · rintro (⟨before, other, after, rfl, hrest, hbefore, haccepts⟩ | ⟨hquit, hrest, hall⟩)
      · exact .inl ⟨text :: before, other, after, rfl, hrest,
          List.forall_mem_cons.mpr ⟨hrejected, hbefore⟩, haccepts⟩
      · exact .inr ⟨hquit, hrest, List.forall_mem_cons.mpr ⟨hrejected, hall⟩⟩
  unfold Answered
  simp only [ask_joint_asks_again texts hagain, hfirst]

/-- The question is answered in just these cases. -/
theorem question_answered_iff (texts : List Text) :
    Answered unicode can_id joints assigned K texts ↔
      ReadUpToFirst unicode can_id joints assigned K texts := by
  induction texts with
  | nil =>
    refine iff_of_true ⟨.choice .quit, [], rfl, .inr (.inr (.inl rfl)), .inr ⟨rfl, rfl, ?_⟩⟩ ?_
    · exact fun text hmem => absurd hmem List.not_mem_nil
    · intro before text after heq
      cases before with
      | nil => cases heq
      | cons => cases heq
  | cons text texts ih =>
    by_cases hunreadable : Unreadable unicode (stripped text)
    · refine iff_of_false ?_ (readUpToFirst_unreadable hunreadable)
      rintro ⟨answer, rest, hreturned, -⟩
      obtain ⟨e, he⟩ : ∃ e, (understand unicode can_id joints assigned text :
          Except (Exception K) _) = .error e := understand_unreadable hunreadable
      cases (ask_joint_raises texts he).symm.trans hreturned
    obtain ⟨answered, hanswered, haccepts⟩ := understand_readable (K := K) hunreadable
    cases answered with
    | some answer =>
      have hok := (haccepts answer).mp rfl
      refine iff_of_true ?_ (readUpToFirst_accepted hunreadable fun hrejected => hrejected answer hok)
      exact ⟨answer, typed K texts, ask_joint_returns texts hanswered, hok.permitted,
        .inl ⟨[], text, texts, rfl, rfl, fun _ hmem => absurd hmem List.not_mem_nil, hok⟩⟩
    | none =>
      have hrejected : Rejected unicode can_id joints assigned K text := fun answer hok => by
        cases (haccepts answer).mpr hok
      rw [answered_rejected hrejected hanswered, readUpToFirst_rejected hunreadable hrejected, ih]

end Question

/-- The digits of Latin-1. -/
def latin_1 (ch : Char) : CharKind :=
  if ch.isDigit then .decimal (ch.toNat - 48)
  else if ch ∈ ['²', '³', '¹'] then .digit
  else .other

/-- A superscript two ends the question. -/
theorem superscript_raises :
    (ask_joint latin_1 10 ["wheel_joint_left"] [] (typed ℚ ["²".toList])).1 =
        .raised (.value_error "invalid literal for int() with base 10") ∧
      ¬ Answered latin_1 10 ["wheel_joint_left"] [] ℚ ["²".toList] := by
  have hraised : (ask_joint latin_1 10 ["wheel_joint_left"] [] (typed ℚ ["²".toList])).1 =
      .raised (.value_error "invalid literal for int() with base 10") := by rfl
  refine ⟨hraised, ?_⟩
  rintro ⟨answer, rest, hreturned, -⟩
  rw [hreturned] at hraised
  cases hraised

end IotRobot.Tool
