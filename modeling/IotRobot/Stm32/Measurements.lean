import IotRobot.Lib.Decimal
import IotRobot.Lib.Dict
import IotRobot.Stm32.Protocol
import Mathlib.Data.Rat.Floor

/-!
# What the measurement lines mean

`parse_line` sees of a line only the stripped keys and values of its fields: it takes the
lines of the emulated board back, and lines that newer firmware may send as well.
-/

namespace IotRobot.Stm32

open Lib Web

set_option autoImplicit false

section Format
variable {K : Type} [Field K] [LinearOrder K] [FloorRing K]

/-- The line that `fake_stm32` sends. -/
def format_reading (left_cm right_cm : K) (volts : Option K) : Text :=
  let line := "D1:".toList ++ fixed 1 left_cm ++ (",D2:".toList ++ fixed 1 right_cm)
  let line := match volts with
    | some volts => line ++ (",V:".toList ++ fixed 2 volts)
    | none => line
  line ++ "\r\n".toList

/-- A distance in cm as a line with one decimal carries it. -/
def rounded_cm (cm : K) : Option K := if 0 < round_digits 1 cm then some (round_digits 1 cm) else none

end Format

/-- Whether a field has a colon, and its stripped key and value. -/
def field_parts (field : Text) : Bool × Text × Text :=
  let (key, sep, value) := partition_at ':' field
  (sep, stripped key, stripped value)

def field_key (field : Text) : Text := (field_parts field).2.1

theorem colon_not_space {a : Text} (ha : Spaces a) : ':' ∉ a := by
  intro h
  have hspace := ha ':' h
  revert hspace
  decide

theorem comma_not_space {a : Text} (ha : Spaces a) : ',' ∉ a := by
  intro h
  have hspace := ha ',' h
  revert hspace
  decide

theorem field_parts_cons {key value : Text} (hkey : ':' ∉ key) :
    field_parts (key ++ ':' :: value) = (true, stripped key, stripped value) := by
  unfold field_parts
  rw [partition_at_cons hkey]

theorem field_parts_plain {field : Text} (h : ':' ∉ field) :
    field_parts field = (false, stripped field, []) := by
  unfold field_parts
  rw [partition_at_none h]
  rfl

/-- Spaces around a key and around a value do not matter. -/
theorem field_parts_spaces {a b c d : Text} (key value : Text) (ha : Spaces a) (hb : Spaces b)
    (hc : Spaces c) (hd : Spaces d) (hkey : ':' ∉ key) :
    field_parts ((a ++ (key ++ b)) ++ ':' :: (c ++ (value ++ d))) =
      field_parts (key ++ ':' :: value) := by
  have hkey' : ':' ∉ a ++ (key ++ b) := by
    rw [List.mem_append, List.mem_append, not_or, not_or]
    exact ⟨colon_not_space ha, hkey, colon_not_space hb⟩
  rw [field_parts_cons hkey', field_parts_cons hkey]
  unfold stripped
  rw [strip_blank_append ha, strip_append_blank hb, strip_blank_append hc, strip_append_blank hd]

theorem field_parts_left {a : Text} (ha : Spaces a) (field : Text) :
    field_parts (a ++ field) = field_parts field := by
  rcases partition_at_cases ':' field with hnone | ⟨key, value, hkey, rfl⟩
  · have hnone' : ':' ∉ a ++ field := by
      rw [List.mem_append, not_or]
      exact ⟨colon_not_space ha, hnone⟩
    rw [field_parts_plain hnone', field_parts_plain hnone]
    unfold stripped
    rw [strip_blank_append ha]
  · have h := field_parts_spaces key value ha .nil .nil .nil hkey
    simpa only [List.append_nil, List.nil_append, List.append_assoc] using h

theorem field_parts_right {b : Text} (hb : Spaces b) (field : Text) :
    field_parts (field ++ b) = field_parts field := by
  rcases partition_at_cases ':' field with hnone | ⟨key, value, hkey, rfl⟩
  · have hnone' : ':' ∉ field ++ b := by
      rw [List.mem_append, not_or]
      exact ⟨hnone, colon_not_space hb⟩
    rw [field_parts_plain hnone', field_parts_plain hnone]
    unfold stripped
    rw [strip_append_blank hb]
  · have h := field_parts_spaces key value .nil .nil .nil hb hkey
    simpa only [List.append_nil, List.nil_append, List.append_assoc, List.cons_append] using h

/-- The parts of a line's fields, which stripping the line does not change. -/
theorem parts_stripped (line : Text) :
    ((stripped line).splitOn ',').map field_parts = (line.splitOn ',').map field_parts := by
  obtain ⟨a, b, ha, hb, hline⟩ := strip_split is_space line
  have hright : ((stripped line ++ b).splitOn ',').map field_parts =
      ((stripped line).splitOn ',').map field_parts := by
    obtain ⟨fields, last, hl, hr⟩ := splitOn_append_right (comma_not_space hb) (stripped line)
    rw [hl, hr, List.map_append, List.map_append, List.map_singleton, List.map_singleton,
      field_parts_right hb]
  have hleft : ((a ++ (stripped line ++ b)).splitOn ',').map field_parts =
      ((stripped line ++ b).splitOn ',').map field_parts := by
    obtain ⟨first, fields, hl, hr⟩ := splitOn_append_left (comma_not_space ha) (stripped line ++ b)
    rw [hl, hr, List.map_cons, List.map_cons, field_parts_left ha]
  have hwhole : line = a ++ (stripped line ++ b) := hline
  rw [← hright, ← hleft, ← hwhole]

theorem parse_fields_cons (field : Text) (fields : List Text) (seen : List (Text × Text)) :
    parse_fields (field :: fields) seen =
      if (field_parts field).1 = false ∨ field_key field = [] ∨
          field_key field ∈ seen.map Prod.fst then none
      else parse_fields fields (seen ++ [(field_parts field).2]) := rfl

/-- Fields with a colon and a key. -/
def WellFormed (fields : List Text) : Prop :=
  ∀ field ∈ fields, (field_parts field).1 = true ∧ field_key field ≠ []

/-- The keys and values of fields. -/
def items (fields : List Text) : List (Text × Text) := fields.map fun field => (field_parts field).2

theorem items_keys (fields : List Text) : (items fields).map Prod.fst = fields.map field_key := by
  unfold items
  rw [List.map_map]
  rfl

/-- `parse_fields` takes the fields that have a colon and a key and no key twice. -/
theorem parse_fields_some_iff (fields : List Text) (seen out : List (Text × Text))
    (hseen : (seen.map Prod.fst).Nodup) :
    parse_fields fields seen = some out ↔
      WellFormed fields ∧ ((seen ++ items fields).map Prod.fst).Nodup ∧
        out = seen ++ items fields := by
  induction fields generalizing seen with
  | nil =>
    rw [show items [] = [] from rfl, List.append_nil]
    constructor
    · intro h
      exact ⟨by rintro _ ⟨⟩, hseen, (Option.some.inj h).symm⟩
    · rintro ⟨-, -, rfl⟩
      rfl
  | cons field fields ih =>
    have hitems : items (field :: fields) = (field_parts field).2 :: items fields := rfl
    rw [parse_fields_cons, hitems, List.append_cons seen (field_parts field).2 (items fields)]
    by_cases hbad : (field_parts field).1 = false ∨ field_key field = [] ∨
        field_key field ∈ seen.map Prod.fst
    · rw [if_pos hbad]
      refine iff_of_false (by rintro ⟨⟩) ?_
      rintro ⟨hwell, hnodup, -⟩
      obtain ⟨hcolon, hkey⟩ := hwell field List.mem_cons_self
      rcases hbad with hcolon' | hkey' | hmem
      · rw [hcolon] at hcolon'
        cases hcolon'
      · exact hkey hkey'
      · rw [List.append_assoc, List.map_append] at hnodup
        exact (List.nodup_append.mp hnodup).2.2 _ hmem _ List.mem_cons_self rfl
    · rw [if_neg hbad]
      obtain ⟨hcolon, hbad⟩ := not_or.mp hbad
      obtain ⟨hkey, hmem⟩ := not_or.mp hbad
      have hseen' : ((seen ++ [(field_parts field).2]).map Prod.fst).Nodup := by
        rw [List.map_append, List.map_singleton]
        refine List.nodup_append.mpr ⟨hseen, List.nodup_cons.mpr ⟨List.not_mem_nil, .nil⟩, ?_⟩
        intro key hseen_key other hother heq
        rw [List.mem_singleton.mp hother] at heq
        rw [heq] at hseen_key
        exact hmem hseen_key
      rw [ih _ hseen']
      unfold WellFormed
      rw [List.forall_mem_cons]
      have hfield : (field_parts field).1 = true ∧ field_key field ≠ [] :=
        ⟨Bool.not_eq_false _ ▸ hcolon, hkey⟩
      rw [and_iff_right hfield]

theorem wellFormed_iff_parts (fields : List Text) :
    WellFormed fields ↔ ∀ parts ∈ fields.map field_parts, parts.1 = true ∧ parts.2.1 ≠ [] := by
  unfold WellFormed field_key
  rw [List.forall_mem_map]

theorem items_eq_parts (fields : List Text) :
    items fields = (fields.map field_parts).map Prod.snd := by
  unfold items
  rw [List.map_map]
  rfl

/-- The first character of a line that is no space is that of its first key. -/
theorem stripped_head {line first : Text} {rest : List Text} (hfields : line.splitOn ',' = first :: rest)
    (hwell : (field_parts first).1 = true ∧ field_key first ≠ []) :
    stripped line ≠ [] ∧ (stripped line).head? = (field_key first).head? := by
  have hparts := parts_stripped line
  rw [hfields, List.map_cons] at hparts
  obtain ⟨field, fields, hsplit, hfield, -⟩ := List.map_eq_cons_iff.mp hparts
  unfold field_key at hwell ⊢
  rw [← hfield] at hwell ⊢
  -- the stripped line starts with this field's key, which starts with no space
  have hjoin : [','].intercalate ((stripped line).splitOn ',') = stripped line :=
    List.intercalate_splitOn ','
  rw [hsplit] at hjoin
  rcases partition_at_cases ':' field with hnone | ⟨key, value, hkey, rfl⟩
  · rw [field_parts_plain hnone] at hwell
    cases hwell.1
  rw [field_parts_cons hkey] at hwell ⊢
  cases key with
  | nil => exact absurd rfl hwell.2
  | cons x key =>
    have hline : ∃ tail, stripped line = x :: tail := by
      rw [← hjoin]
      cases fields <;> simp
    obtain ⟨tail, hline⟩ := hline
    have hx : is_space x = false := strip_head hline
    rw [hline]
    refine ⟨List.cons_ne_nil _ _, ?_⟩
    change _ = (strip is_space (x :: key)).head?
    rw [strip_cons hx]
    rfl

section Parser
variable {K : Type} [Field K] [LinearOrder K] (float : Text → Option (Dbl K))

/-- The reading in the items of a line. -/
def read_items (fields : List (Text × Text)) : Option (Reading K) := do
  let d1 ← fields.lookup "D1".toList
  let d2 ← fields.lookup "D2".toList
  let left ← parse_distance float d1
  let right ← parse_distance float d2
  let volts ← parse_volts float (fields.lookup "V".toList)
  return { left_cm := left, right_cm := right, volts := volts }

theorem parse_line_eq (line : Text) :
    parse_line float line =
      if stripped line = [] ∨ (stripped line).head? = some '#' then none
      else (parse_fields ((stripped line).splitOn ',') []).bind (read_items float) := by
  unfold parse_line
  dsimp only
  cases parse_fields ((stripped line).splitOn ',') [] with
  | none => rfl
  | some fields => rfl

/-- A line is read from its items: every field has a colon and a key, no key occurs twice,
and the first one does not start with the sign of a comment. -/
theorem parse_line_some_iff (line : Text) (reading : Reading K) :
    parse_line float line = some reading ↔
      WellFormed (line.splitOn ',') ∧ ((line.splitOn ',').map field_key).Nodup ∧
        (∀ key ∈ ((line.splitOn ',').map field_key).head?, key.head? ≠ some '#') ∧
        read_items float (items (line.splitOn ',')) = some reading := by
  have hparts := parts_stripped line
  have hwell : WellFormed ((stripped line).splitOn ',') ↔ WellFormed (line.splitOn ',') := by
    rw [wellFormed_iff_parts, wellFormed_iff_parts, hparts]
  have hitems : items ((stripped line).splitOn ',') = items (line.splitOn ',') := by
    rw [items_eq_parts, items_eq_parts, hparts]
  obtain ⟨first, rest, hfields⟩ := List.exists_cons_of_ne_nil (List.splitOn_ne_nil ',' line)
  have hfirst : ((line.splitOn ',').map field_key).head? = some (field_key first) := by
    rw [hfields]
    rfl
  rw [parse_line_eq, hfirst, ← items_keys]
  constructor
  · intro h
    obtain ⟨hline, h⟩ := Option.ite_none_left_eq_some.mp h
    obtain ⟨out, hout, hread⟩ := Option.bind_eq_some_iff.mp h
    obtain ⟨hw, hnodup, rfl⟩ := (parse_fields_some_iff _ [] out .nil).mp hout
    rw [hwell] at hw
    rw [List.nil_append, hitems] at hnodup hread
    refine ⟨hw, hnodup, ?_, hread⟩
    rintro _ ⟨⟩ hhash
    rw [(stripped_head hfields (hw first (hfields ▸ List.mem_cons_self))).2] at hline
    exact hline (.inr hhash)
  · rintro ⟨hw, hnodup, hhash, hread⟩
    obtain ⟨hne, hhead⟩ := stripped_head hfields (hw first (hfields ▸ List.mem_cons_self))
    have hout : parse_fields ((stripped line).splitOn ',') [] = some (items (line.splitOn ',')) := by
      rw [parse_fields_some_iff _ [] _ .nil, List.nil_append, hwell, hitems]
      exact ⟨hw, hnodup, rfl⟩
    rw [if_neg, hout]
    · exact hread
    · rw [hhead, not_or]
      exact ⟨hne, hhash _ rfl⟩

def join_fields (fields : List Text) : Text := [','].intercalate fields

def field_value (field : Text) : Text := (field_parts field).2.2

/-- The key and the value of a field between other spaces. -/
def Respaced (field field' : Text) : Prop :=
  ∃ a b c d, Spaces a ∧ Spaces b ∧ Spaces c ∧ Spaces d ∧
    field' = (a ++ (field_key field ++ b)) ++ ':' :: (c ++ (field_value field ++ d))

/-- A field `KEY:value` without a comma or a second colon in its key. -/
structure IsField (field key value : Text) : Prop where
  eq : field = key ++ ':' :: value
  colon : ':' ∉ key
  comma : ',' ∉ key
  value_comma : ',' ∉ value

/-- A field that newer firmware may add to a line with these keys. -/
def NewField (keys : List Text) (field : Text) : Prop :=
  ∃ key value, IsField field key value ∧ stripped key ≠ [] ∧ stripped key ∉ keys ∧
    stripped key ∉ ["D1".toList, "D2".toList, "V".toList] ∧ (stripped key).head? ≠ some '#'

/-- The fields of the line in any order and with any spaces, and some more. -/
def Rewritten (line : Text) (more : List Text) (line' : Text) : Prop :=
  ∃ same fields', List.Forall₂ Respaced (line.splitOn ',') same ∧ fields'.Perm (same ++ more) ∧
    line' = join_fields fields'

/-- The line without a field, in any order and with any spaces. -/
def Without (line key line' : Text) : Prop :=
  ∃ same fields', List.Forall₂ Respaced (line.splitOn ',') same ∧
    fields'.Perm (same.filter fun field => field_key field ≠ key) ∧ line' = join_fields fields'

theorem IsField.parts {field key value : Text} (h : IsField field key value) :
    field_parts field = (true, stripped key, stripped value) := by
  rw [h.eq]
  exact field_parts_cons h.colon

theorem IsField.no_comma {field key value : Text} (h : IsField field key value) : ',' ∉ field := by
  rw [h.eq, List.mem_append, List.mem_cons, not_or, not_or]
  exact ⟨h.comma, by decide, h.value_comma⟩

/-- Other spaces change neither the parts of a field nor that it has no comma. -/
theorem Respaced.spec {field field' : Text} (h : Respaced field field')
    (hcolon : (field_parts field).1 = true) (hcomma : ',' ∉ field) :
    field_parts field' = field_parts field ∧ ',' ∉ field' := by
  obtain ⟨a, b, c, d, ha, hb, hc, hd, rfl⟩ := h
  rcases partition_at_cases ':' field with hnone | ⟨key, value, hkey, rfl⟩
  · rw [field_parts_plain hnone] at hcolon
    cases hcolon
  have hparts : field_parts (key ++ ':' :: value) = (true, stripped key, stripped value) :=
    field_parts_cons hkey
  have hkey' : field_key (key ++ ':' :: value) = stripped key := congrArg (·.2.1) hparts
  have hvalue' : field_value (key ++ ':' :: value) = stripped value := congrArg (·.2.2) hparts
  have hcolon' : ':' ∉ stripped key := fun hmem => hkey (mem_of_mem_strip hmem)
  rw [hkey', hvalue', field_parts_spaces _ _ ha hb hc hd hcolon', field_parts_cons hcolon', hparts]
  constructor
  · unfold stripped
    rw [strip_strip, strip_strip]
  · simp only [List.mem_append, List.mem_cons, not_or] at hcomma ⊢
    exact ⟨⟨comma_not_space ha, fun hmem => hcomma.1 (mem_of_mem_strip hmem), comma_not_space hb⟩,
      by decide, comma_not_space hc, fun hmem => hcomma.2.2 (mem_of_mem_strip hmem),
      comma_not_space hd⟩

theorem respaced_parts {fields same : List Text} (h : List.Forall₂ Respaced fields same)
    (hwell : WellFormed fields) (hcomma : ∀ field ∈ fields, ',' ∉ field) :
    same.map field_parts = fields.map field_parts ∧ ∀ field ∈ same, ',' ∉ field := by
  induction h with
  | nil => exact ⟨rfl, by rintro _ ⟨⟩⟩
  | cons hfield _ ih =>
    obtain ⟨hparts, hno⟩ := hfield.spec (hwell _ List.mem_cons_self).1 (hcomma _ List.mem_cons_self)
    obtain ⟨hrest, hnos⟩ := ih (fun f hf => hwell f (List.mem_cons_of_mem _ hf))
      fun f hf => hcomma f (List.mem_cons_of_mem _ hf)
    refine ⟨by rw [List.map_cons, List.map_cons, hparts, hrest], fun f hf => ?_⟩
    rcases List.mem_cons.mp hf with rfl | hf
    · exact hno
    · exact hnos f hf

theorem splitOn_join_fields {fields : List Text} (hne : fields ≠ [])
    (hcomma : ∀ field ∈ fields, ',' ∉ field) : (join_fields fields).splitOn ',' = fields :=
  List.splitOn_intercalate ',' hcomma hne

/-- A reading depends on the three fields that it is made of. -/
theorem read_items_congr {fields fields' : List (Text × Text)}
    (h : ∀ key ∈ ["D1".toList, "D2".toList, "V".toList], fields.lookup key = fields'.lookup key) :
    read_items float fields = read_items float fields' := by
  unfold read_items
  rw [h _ (by decide), h _ (by decide), h _ (by decide)]

/-- The keys of a line's fields. -/
def keys_of (line : Text) : List Text := (line.splitOn ',').map field_key

/-- Fields with the parts of a line's fields have its keys. -/
theorem keys_of_parts {same : List Text} {line : Text}
    (h : same.map field_parts = (line.splitOn ',').map field_parts) :
    same.map field_key = keys_of line := by
  have hproj := congrArg (List.map fun parts => parts.2.1) h
  rw [List.map_map, List.map_map] at hproj
  exact hproj

theorem parse_rewritten {line line' : Text} {more : List Text} {reading : Reading K}
    (h : parse_line float line = some reading) (hhash : ∀ key ∈ keys_of line, key.head? ≠ some '#')
    (hmore : ∀ field ∈ more, NewField (keys_of line) field) (hdistinct : (more.map field_key).Nodup)
    (hr : Rewritten line more line') : parse_line float line' = some reading := by
  obtain ⟨hwell, hnodup, -, hread⟩ := (parse_line_some_iff float line reading).mp h
  obtain ⟨same, fields', hresp, hperm, rfl⟩ := hr
  obtain ⟨hparts, hsame⟩ := respaced_parts hresp hwell fun f hf => not_mem_of_mem_splitOn hf
  have hkeys := keys_of_parts hparts
  have hkey : ∀ field ∈ more, ∃ key value, IsField field key value ∧ field_key field = stripped key ∧
      stripped key ≠ [] ∧ stripped key ∉ keys_of line ∧
      stripped key ∉ ["D1".toList, "D2".toList, "V".toList] ∧ (stripped key).head? ≠ some '#' := by
    intro field hfield
    obtain ⟨key, value, hf, hne, hnew, hused, hhead⟩ := hmore field hfield
    exact ⟨key, value, hf, congrArg (·.2.1) hf.parts, hne, hnew, hused, hhead⟩
  have hcomma : ∀ field ∈ fields', ',' ∉ field := by
    intro field hfield
    rcases List.mem_append.mp (hperm.mem_iff.mp hfield) with hfield | hfield
    · exact hsame field hfield
    · obtain ⟨key, value, hf, -⟩ := hkey field hfield
      exact hf.no_comma
  have hne : fields' ≠ [] := by
    rintro rfl
    have hnil := List.Perm.eq_nil hperm.symm
    have hlen := hresp.length_eq
    rw [(List.append_eq_nil_iff.mp hnil).1, List.length_nil, List.length_eq_zero_iff] at hlen
    exact List.splitOn_ne_nil ',' line hlen
  have hall : ((same ++ more).map field_key).Nodup := by
    rw [List.map_append, hkeys]
    refine List.nodup_append.mpr ⟨hnodup, hdistinct, fun key hkeyline other hother => ?_⟩
    obtain ⟨field, hfield, rfl⟩ := List.mem_map.mp hother
    obtain ⟨key', value, -, heq, -, hnew, -⟩ := hkey field hfield
    rw [heq]
    rintro rfl
    exact hnew hkeyline
  rw [parse_line_some_iff, splitOn_join_fields hne hcomma]
  refine ⟨?_, (hperm.map field_key).nodup_iff.mpr hall, ?_, ?_⟩
  · intro field hfield
    rcases List.mem_append.mp (hperm.mem_iff.mp hfield) with hfield | hfield
    · have hw := (wellFormed_iff_parts _).mp hwell
      rw [← hparts, ← wellFormed_iff_parts] at hw
      exact hw field hfield
    · obtain ⟨key, value, hf, heq, hkeyne, -⟩ := hkey field hfield
      exact ⟨congrArg (·.1) hf.parts, heq ▸ hkeyne⟩
  · intro key hfirst
    obtain ⟨field, hfield, rfl⟩ := List.mem_map.mp (List.mem_of_mem_head? hfirst)
    rcases List.mem_append.mp (hperm.mem_iff.mp hfield) with hfield | hfield
    · exact hhash _ (hkeys ▸ List.mem_map_of_mem hfield)
    · obtain ⟨key, value, -, heq, -, -, -, hhead⟩ := hkey field hfield
      exact heq ▸ hhead
  · rw [← hread]
    apply read_items_congr
    intro key hused
    have hitems : items same = items (line.splitOn ',') := by
      rw [items_eq_parts, items_eq_parts, hparts]
    have hother : key ∉ (items more).map Prod.fst := by
      rw [items_keys]
      intro hmem
      obtain ⟨field, hfield, heq⟩ := List.mem_map.mp hmem
      obtain ⟨key', value, -, heq', -, -, hfree, -⟩ := hkey field hfield
      exact hfree ((heq'.symm.trans heq) ▸ hused)
    have hperm' : (items fields').Perm (items (same ++ more)) := hperm.map _
    have hnodup' : ((items fields').map Prod.fst).Nodup := by
      rw [items_keys]
      exact (hperm.map field_key).nodup_iff.mpr hall
    have hsplit : items (same ++ more) = items same ++ items more := List.map_append
    rw [lookup_perm hperm' hnodup', hsplit, lookup_append_other _ hother, hitems]

/-- A key that occurs again spoils the line. -/
theorem parse_repeated {line line' dup key value : Text} {reading : Reading K}
    (h : parse_line float line = some reading) (hdup : IsField dup key value)
    (hkey : stripped key ∈ keys_of line) (hr : Rewritten line [dup] line') :
    parse_line float line' = none := by
  obtain ⟨hwell, -, -, -⟩ := (parse_line_some_iff float line reading).mp h
  obtain ⟨same, fields', hresp, hperm, rfl⟩ := hr
  obtain ⟨hparts, hsame⟩ := respaced_parts hresp hwell fun f hf => not_mem_of_mem_splitOn hf
  have hkeys := keys_of_parts hparts
  have hcomma : ∀ field ∈ fields', ',' ∉ field := by
    intro field hfield
    rcases List.mem_append.mp (hperm.mem_iff.mp hfield) with hfield | hfield
    · exact hsame field hfield
    · rw [List.mem_singleton.mp hfield]
      exact hdup.no_comma
  have hne : fields' ≠ [] := by
    rintro rfl
    have hnil := List.Perm.eq_nil hperm.symm
    exact List.cons_ne_nil _ _ (List.append_eq_nil_iff.mp hnil).2
  rw [Option.eq_none_iff_forall_ne_some]
  intro other hother
  obtain ⟨-, hnodup, -⟩ := (parse_line_some_iff float _ other).mp hother
  rw [splitOn_join_fields hne hcomma, (hperm.map field_key).nodup_iff, List.map_append, hkeys,
    List.map_singleton] at hnodup
  refine (List.nodup_append.mp hnodup).2.2 _ hkey _ (List.mem_singleton_self _) ?_
  exact (congrArg (·.2.1) hdup.parts).symm

/-- A line without one of the distances is refused. -/
theorem parse_without {line line' key : Text} {reading : Reading K}
    (h : parse_line float line = some reading) (hkey : key ∈ ["D1".toList, "D2".toList])
    (hr : Without line key line') : parse_line float line' = none := by
  obtain ⟨hwell, -, -, -⟩ := (parse_line_some_iff float line reading).mp h
  obtain ⟨same, fields', hresp, hperm, rfl⟩ := hr
  obtain ⟨-, hsame⟩ := respaced_parts hresp hwell fun f hf => not_mem_of_mem_splitOn hf
  have hcomma : ∀ field ∈ fields', ',' ∉ field := fun field hfield =>
    hsame field (List.mem_filter.mp (hperm.mem_iff.mp hfield)).1
  rw [Option.eq_none_iff_forall_ne_some]
  intro other hother
  obtain ⟨hwell', -, -, hread⟩ := (parse_line_some_iff float _ other).mp hother
  by_cases hne : fields' = []
  · -- an empty line has one field, without a colon
    subst hne
    have hfield := hwell' [] (by decide)
    cases hfield.1
  rw [splitOn_join_fields hne hcomma] at hread
  have hmissing : (items fields').lookup key = none := by
    apply lookup_none
    rw [items_keys]
    intro hmem
    obtain ⟨field, hfield, heq⟩ := List.mem_map.mp hmem
    have hother := (List.mem_filter.mp (hperm.mem_iff.mp hfield)).2
    exact of_decide_eq_true hother heq
  unfold read_items at hread
  rcases List.mem_pair.mp hkey with rfl | rfl
  · rw [hmissing] at hread
    cases hread
  · rw [hmissing] at hread
    cases hd1 : (items fields').lookup "D1".toList with
    | none => rw [hd1] at hread; cases hread
    | some d1 => rw [hd1] at hread; cases hread

variable [FloorRing K]

omit [Field K] [LinearOrder K] in
theorem digit_plain {ch : Char} (h : ch.isDigit = true) : is_space ch = false ∧ ch ≠ ',' := by
  have hrange : 48 ≤ ch.toNat ∧ ch.toNat ≤ 57 := by
    unfold Char.isDigit at h
    rw [Bool.and_eq_true, decide_eq_true_iff, decide_eq_true_iff] at h
    exact ⟨h.1, h.2⟩
  constructor
  · unfold is_space
    simp only [Bool.or_eq_false_iff, Bool.and_eq_false_iff, decide_eq_false_iff_not, beq_eq_false_iff_ne]
    omega
  · rintro rfl
    exact absurd hrange (by decide)

theorem fixed_plain (digits : Nat) (x : K) :
    ∀ ch ∈ fixed digits x, is_space ch = false ∧ ch ≠ ',' := by
  intro ch hch
  rcases mem_fixed hch with rfl | rfl | hdigit
  · decide
  · decide
  · exact digit_plain hdigit

theorem stripped_fixed (digits : Nat) (x : K) : stripped (fixed digits x) = fixed digits x :=
  strip_of_no_space fun ch hch => (fixed_plain digits x ch hch).1

theorem newline_spaces : Spaces "\r\n".toList :=
  List.all_eq_true.mp (by decide : "\r\n".toList.all is_space = true)

/-- A field that carries a number, with or without the end of the line. -/
theorem number_field (key : Text) (digits : Nat) (x : K) {tail : Text} (htail : Spaces tail)
    (hcolon : ':' ∉ key) (hcomma : ',' ∉ key) (hkey : stripped key = key) :
    field_parts (key ++ ':' :: (fixed digits x ++ tail)) = (true, key, fixed digits x) ∧
      ',' ∉ key ++ ':' :: (fixed digits x ++ tail) := by
  constructor
  · rw [field_parts_cons hcolon, hkey]
    unfold stripped
    rw [strip_append_blank htail]
    exact congrArg _ (congrArg _ (stripped_fixed digits x))
  · rw [List.mem_append, List.mem_cons, List.mem_append, not_or, not_or, not_or]
    exact ⟨hcomma, by decide, fun h => (fixed_plain digits x ',' h).2 rfl, comma_not_space htail⟩

variable [IsStrictOrderedRing K]

theorem parse_distance_fixed (hfloat : ReadsDecimals float) (cm : K) :
    parse_distance float (fixed 1 cm) = some (rounded_cm cm) := by
  unfold parse_distance rounded_cm
  rw [float_fixed hfloat one_pos]

theorem parse_volts_fixed (hfloat : ReadsDecimals float) (volts : K) :
    parse_volts float (some (fixed 2 volts)) = some (some (round_digits 2 volts)) := by
  unfold parse_volts
  dsimp only
  rw [float_fixed hfloat two_pos]

omit [FloorRing K] [IsStrictOrderedRing K] in
/-- A line that is joined from fields with these keys and values is read from them. -/
theorem parse_joined {fields : List Text} (pairs : List (Text × Text)) {reading : Reading K}
    (hparts : fields.map field_parts = pairs.map fun pair => (true, pair.1, pair.2))
    (hcomma : ∀ field ∈ fields, ',' ∉ field) (hne : fields ≠ [])
    (hkeys : (pairs.map Prod.fst).Nodup)
    (hplain : ∀ key ∈ pairs.map Prod.fst, key ≠ [] ∧ key.head? ≠ some '#')
    (hread : read_items float pairs = some reading) :
    parse_line float (join_fields fields) = some reading := by
  have hitems : items fields = pairs := by
    rw [items_eq_parts, hparts, List.map_map]
    exact List.map_id' pairs
  rw [parse_line_some_iff, splitOn_join_fields hne hcomma, ← items_keys, hitems]
  refine ⟨?_, hkeys, fun key hfirst => (hplain key (List.mem_of_mem_head? hfirst)).2, hread⟩
  rw [wellFormed_iff_parts, hparts]
  intro parts hmem
  obtain ⟨pair, hpair, rfl⟩ := List.mem_map.mp hmem
  exact ⟨rfl, (hplain pair.1 (List.mem_map_of_mem hpair)).1⟩

/-- The line of the emulated board is read as the distances and the voltage that it rounds. -/
theorem parse_format_reading (hfloat : ReadsDecimals float) (left_cm right_cm : K)
    (volts : Option K) :
    parse_line float (format_reading left_cm right_cm volts) =
      some { left_cm := rounded_cm left_cm
             right_cm := rounded_cm right_cm
             volts := volts.map (round_digits 2) } := by
  have hd1 := number_field "D1".toList 1 left_cm .nil (by decide) (by decide) (by decide)
  have hleft := parse_distance_fixed float hfloat left_cm
  have hright := parse_distance_fixed float hfloat right_cm
  cases volts with
  | none =>
    have hd2 := number_field "D2".toList 1 right_cm newline_spaces (by decide) (by decide)
      (by decide)
    have hline : format_reading left_cm right_cm none =
        join_fields ["D1".toList ++ ':' :: (fixed 1 left_cm ++ []),
          "D2".toList ++ ':' :: (fixed 1 right_cm ++ "\r\n".toList)] := by
      simp [format_reading, join_fields]
    rw [hline]
    refine parse_joined float [("D1".toList, fixed 1 left_cm), ("D2".toList, fixed 1 right_cm)]
      ?_ ?_ (by simp) ?_ ?_ ?_
    · rw [List.map_cons, List.map_singleton, hd1.1, hd2.1]
      rfl
    · rintro field hfield
      rcases List.mem_pair.mp hfield with rfl | rfl
      · exact hd1.2
      · exact hd2.2
    · simp only [List.map_cons, List.map_nil]
      decide
    · simp only [List.map_cons, List.map_nil]
      decide
    · change (do
        let left ← parse_distance float (fixed 1 left_cm)
        let right ← parse_distance float (fixed 1 right_cm)
        let volts ← parse_volts float none
        return ({ left_cm := left, right_cm := right, volts := volts } : Reading K)) = _
      rw [hleft, hright]
      rfl
  | some volts =>
    have hd2 := number_field "D2".toList 1 right_cm .nil (by decide) (by decide) (by decide)
    have hv := number_field "V".toList 2 volts newline_spaces (by decide) (by decide) (by decide)
    have hline : format_reading left_cm right_cm (some volts) =
        join_fields ["D1".toList ++ ':' :: (fixed 1 left_cm ++ []),
          "D2".toList ++ ':' :: (fixed 1 right_cm ++ []),
          "V".toList ++ ':' :: (fixed 2 volts ++ "\r\n".toList)] := by
      simp [format_reading, join_fields]
    rw [hline]
    refine parse_joined float [("D1".toList, fixed 1 left_cm), ("D2".toList, fixed 1 right_cm),
      ("V".toList, fixed 2 volts)] ?_ ?_ (by simp) ?_ ?_ ?_
    · rw [List.map_cons, List.map_cons, List.map_singleton, hd1.1, hd2.1, hv.1]
      rfl
    · rintro field hfield
      rcases List.mem_cons.mp hfield with rfl | hfield
      · exact hd1.2
      rcases List.mem_pair.mp hfield with rfl | rfl
      · exact hd2.2
      · exact hv.2
    · simp only [List.map_cons, List.map_nil]
      decide
    · simp only [List.map_cons, List.map_nil]
      decide
    · change (do
        let left ← parse_distance float (fixed 1 left_cm)
        let right ← parse_distance float (fixed 1 right_cm)
        let volts ← parse_volts float (some (fixed 2 volts))
        return ({ left_cm := left, right_cm := right, volts := volts } : Reading K)) = _
      rw [hleft, hright, parse_volts_fixed float hfloat]
      rfl

/-- The measurement line survives the way over the wire, and so do the fields that are known
today in the lines of newer firmware; without a distance or with a key that occurs twice a
line is refused. -/
theorem measurement_line (hfloat : ReadsDecimals float) :
    (∀ (left_cm right_cm : K) (volts : Option K),
      parse_line float (format_reading left_cm right_cm volts) =
        some { left_cm := rounded_cm left_cm
               right_cm := rounded_cm right_cm
               volts := volts.map (round_digits 2) }) ∧
    ∀ (line : Text) (reading : Reading K), parse_line float line = some reading →
      (∀ key ∈ keys_of line, key.head? ≠ some '#') →
      (∀ more line', (∀ field ∈ more, NewField (keys_of line) field) →
        (more.map field_key).Nodup → Rewritten line more line' →
        parse_line float line' = some reading) ∧
      (∀ dup key value line', IsField dup key value → stripped key ∈ keys_of line →
        Rewritten line [dup] line' → parse_line float line' = none) ∧
      (∀ key line', key ∈ ["D1".toList, "D2".toList] → Without line key line' →
        parse_line float line' = none) := by
  refine ⟨parse_format_reading float hfloat, fun line reading h hhash => ⟨?_, ?_, ?_⟩⟩
  · intro more line' hmore hdistinct hr
    exact parse_rewritten float h hhash hmore hdistinct hr
  · intro dup key value line' hdup hkey hr
    exact parse_repeated float h hdup hkey hr
  · intro key line' hkey hr
    exact parse_without float h hkey hr

end Parser

section Examples

/-- The board's line for 45.34 cm, no echo and 24.12 V, and a line of newer firmware. -/
theorem measurement_line_examples :
    parse_line (read_decimal (K := ℚ)) (format_reading (45.34 : ℚ) (-1) (some 24.12)) =
      some { left_cm := rounded_cm 45.34, right_cm := rounded_cm (-1),
             volts := some (round_digits 2 24.12) } ∧
    ∀ reading : Reading ℚ, parse_line read_decimal "D1:10.0,D2:20.5".toList = some reading →
      parse_line read_decimal "T:31,D2 : 20.5,D1:10.0".toList = some reading := by
  obtain ⟨hformat, hlines⟩ := measurement_line (K := ℚ) read_decimal reads_decimals_read_decimal
  refine ⟨hformat 45.34 (-1) (some 24.12), fun reading h => ?_⟩
  refine (hlines _ reading h (by decide +kernel)).1 ["T:31".toList] _ ?_ (by decide +kernel) ?_
  · intro field hfield
    rw [List.mem_singleton.mp hfield]
    exact ⟨"T".toList, "31".toList, ⟨rfl, by decide +kernel, by decide +kernel, by decide +kernel⟩,
      by decide +kernel, by decide +kernel, by decide +kernel, by decide +kernel⟩
  · refine ⟨["D1:10.0".toList, "D2 : 20.5".toList],
      ["T:31".toList, "D2 : 20.5".toList, "D1:10.0".toList], ?_, by decide +kernel, by decide +kernel⟩
    have hspace : Spaces [' '] := List.all_eq_true.mp (by decide : [' '].all is_space = true)
    rw [show "D1:10.0,D2:20.5".toList.splitOn ',' = ["D1:10.0".toList, "D2:20.5".toList] by decide +kernel]
    refine .cons ?_ (.cons ?_ .nil)
    · exact ⟨[], [], [], [], .nil, .nil, .nil, .nil, by decide +kernel⟩
    · exact ⟨[], [' '], [' '], [], .nil, hspace, hspace, .nil, by decide +kernel⟩

end Examples

end IotRobot.Stm32
