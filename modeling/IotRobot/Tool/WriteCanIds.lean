import IotRobot.Lib.Programs
import IotRobot.Tool.BlockYaml
import Mathlib.Logic.Function.Basic

/-!
# write_can_ids

The new text is computed and validated before anything is written. It goes to a temporary file
beside the original one, which is then renamed over it; whatever fails on the way, the temporary
file is removed again.
-/

namespace IotRobot.Tool

open Lib Prog Can

set_option autoImplicit false

structure Stored where
  bytes : List UInt8
  /-- `st_mode & 0o7777`. -/
  mode : Nat
  deriving DecidableEq

/-- The files under their real paths. -/
abbrev Disk := String → Option Stored

/-- What `write_can_ids` uses outside the repository. Each call that can fail is given by the
exception that it raises, if it does. -/
structure Host (K O : Type) where
  py : PyYaml O
  decode : List UInt8 → Option String
  encode : String → Option (List UInt8)
  realpath : String → Except (Exception K) String
  /-- Why a file that is there cannot be read. -/
  unreadable : String → Option String
  /-- The name that `mkstemp` picks in a directory. -/
  temp_path : String → String
  mkstemp : Option (Exception K)
  fdopen : Option (Exception K)
  /-- With what has been written by then. -/
  write : Option (Exception K × List UInt8)
  stat : Option (Exception K)
  chmod : Option (Exception K)
  replace : Option (Exception K)
  unlink : Option (Exception K)

/-- `os.path.dirname`. -/
def dirname (path : String) : String :=
  let head := path.toList.reverse.dropWhile fun ch => ch != '/'
  let trimmed := head.dropWhile fun ch => ch == '/'
  String.ofList (if trimmed = [] then head else trimmed).reverse

section Program
variable {K O : Type} (host : Host K O)

def Host.file (disk : Disk) (real_path : String) : File :=
  match disk real_path, host.unreadable real_path with
  | none, _ => .unreadable "No such file or directory"
  | some _, some strerror => .unreadable strerror
  | some stored, none => .bytes stored.bytes

def read_stream (real_path : String) (file : File) : Except (Exception K) String :=
  match file with
  | .unreadable strerror => .error (.motor_config_error (s!"Cannot read {real_path}: " ++ strerror))
  | .bytes b =>
    match host.decode b with
    | some text => .ok text
    | none => .error .unicode_decode_error

/-- The joints that do not have their new CAN ID in the new text. -/
def unchanged (config : MotorConfig) (can_ids : Dict String Int) : List String :=
  (can_ids.filter fun item =>
    match config.get item.1 with
    | none => true
    | some motor => (motor.can_id : Int) != item.2).map Prod.fst

/-- The new text, validated. -/
def new_text (real_path : String) (can_ids : Dict String Int) (text : String) :
    Except (Exception K) String := do
  let text ← rewrite_text can_ids text.toList
  let config ← parse host.py (String.ofList text) real_path false
  if unchanged config can_ids ≠ [] then
    throw (.motor_config_error ("Could not find the can_id line of " ++
      ", ".intercalate (unchanged config can_ids) ++ s!" in {real_path}; " ++
      "write it in block style ('can_id: <n>' on its own line) or edit it by hand."))
  else pure (String.ofList text)

/-- A call that raises this exception, if there is one. -/
def attempt (failure : Option (Exception K)) : Prog Disk (Exception K) Unit :=
  match failure with
  | some e => raise e
  | none => pure ()

def store (path : String) (stored : Option Stored) : Prog Disk (Exception K) Unit :=
  update fun disk => Function.update disk path stored

/-- `tempfile.mkstemp`: an empty file that was not there before. -/
def make_temp (temp_path : String) : Prog Disk (Exception K) Unit := do
  attempt host.mkstemp
  let taken ← Prog.read fun disk => disk temp_path
  if taken.isSome then raise .os_error else store temp_path (some ⟨[], 0o600⟩)

/-- `with os.fdopen(fd, "w") as stream: stream.write(text)`. -/
def write_temp (temp_path text : String) : Prog Disk (Exception K) Unit := do
  attempt host.fdopen
  match host.encode text, host.write with
  | none, _ => raise .other
  | some _, some (e, written) => do
    store temp_path (some ⟨written, 0o600⟩)
    raise e
  | some bytes, none => store temp_path (some ⟨bytes, 0o600⟩)

/-- `os.chmod(temp_path, os.stat(real_path).st_mode & 0o7777)`. -/
def chmod_temp (real_path temp_path : String) : Prog Disk (Exception K) Unit := do
  attempt host.stat
  let original ← Prog.read fun disk => disk real_path
  match original with
  | none => raise .os_error
  | some original => do
    attempt host.chmod
    update fun disk => Function.update disk temp_path
      ((disk temp_path).map fun temp => { temp with mode := original.mode })

/-- `os.replace(temp_path, real_path)`. -/
def replace_original (real_path temp_path : String) : Prog Disk (Exception K) Unit := do
  attempt host.replace
  update fun disk => Function.update (Function.update disk real_path (disk temp_path)) temp_path none

/-- `if os.path.exists(temp_path): os.unlink(temp_path)`. -/
def remove_temp (temp_path : String) : Prog Disk (Exception K) Unit := do
  let temp ← Prog.read fun disk => disk temp_path
  if temp.isSome then do
    attempt host.unlink
    store temp_path none
  else pure ()

/-- Write a sibling file and rename it over the original. -/
def save (real_path text : String) : Prog Disk (Exception K) Unit := do
  let temp_path := host.temp_path (dirname real_path)
  make_temp host temp_path
  handle (do
      write_temp host temp_path text
      chmod_temp host real_path temp_path
      replace_original host real_path temp_path)
    fun e => do
      remove_temp host temp_path
      raise e

/-- Set the can_id of some joints in motors.yaml, changing nothing else; the path written. -/
def write_can_ids (path : String) (can_ids : Dict String Int) :
    Prog Disk (Exception K) String := do
  let real_path ← lift (host.realpath path)
  let file ← Prog.read fun disk => host.file disk real_path
  let text ← lift (read_stream host real_path file)
  let text ← lift (new_text host real_path can_ids text)
  save host real_path text
  pure real_path

end Program

/-- The disk but for the temporary file. -/
def Beside (disk : Disk) (temp_path : String) (s : Disk) : Prop :=
  ∃ temp, s = Function.update disk temp_path temp

/-- Every call on the way works. -/
structure Host.Works {K O : Type} (host : Host K O) (disk : Disk) (real_path text : String) : Prop where
  mkstemp : host.mkstemp = none
  fresh : disk (host.temp_path (dirname real_path)) = none
  fdopen : host.fdopen = none
  encode : ∃ bytes, host.encode text = some bytes
  write : host.write = none
  stat : host.stat = none
  chmod : host.chmod = none
  replace : host.replace = none

/-- A part of the saving returns with `Q`, or it raises and leaves the disk as it was but for the
temporary file; then something does not work. -/
inductive Leaves {K : Type} (works : Prop) (disk : Disk) (temp_path : String) (Q : Disk → Prop) :
    Outcome (Exception K) Unit → Disk → Prop
  | returned (s : Disk) (h : Q s) : Leaves works disk temp_path Q (.returned ()) s
  | raised (e : Exception K) (s : Disk) (hnot : ¬ works) (h : Beside disk temp_path s) :
      Leaves works disk temp_path Q (.raised e) s

section Save
variable {K O : Type} {host : Host K O} {disk : Disk} {real_path temp_path text : String}
  {works : Prop} {P Q R : Disk → Prop}

theorem leaves_bind {p q : Prog Disk (Exception K) Unit}
    (hp : Triple P p (Leaves works disk temp_path Q)) (hq : Triple Q q (Leaves works disk temp_path R)) :
    Triple P (do p; q) (Leaves works disk temp_path R) := by
  refine bind_rule hp (fun _ => ?_) ⟨?_, ?_⟩
  · rintro s (⟨_, hs⟩ | _)
    exact hq s hs
  · rintro e s (_ | ⟨_, _, hnot, h⟩)
    exact .raised e s hnot h
  · rintro s ⟨⟩

theorem attempt_leaves {failure : Option (Exception K)} (hfails : ∀ e, failure = some e → ¬ works)
    (hbeside : ∀ s, P s → Beside disk temp_path s) :
    Triple P (attempt failure) (Leaves works disk temp_path fun s => failure = none ∧ P s) := by
  intro s hs
  cases failure with
  | some e => exact .raised e s (hfails e rfl) (hbeside s hs)
  | none => exact .returned s ⟨rfl, hs⟩

/-- A read has no effect. -/
theorem read_leaves {α : Type} {f : Disk → α} {p : α → Prog Disk (Exception K) Unit}
    (h : ∀ s, P s → Leaves works disk temp_path Q (p (f s) s).1 (p (f s) s).2) :
    Triple P (do let a ← Prog.read f; p a) (Leaves works disk temp_path Q) := h

theorem update_leaves {f : Disk → Disk} (h : ∀ s, P s → Q (f s)) :
    Triple P (update f) (Leaves (K := K) works disk temp_path Q) := fun s hs => .returned _ (h s hs)

theorem write_temp_leaves (hfdopen : host.fdopen ≠ none → ¬ works)
    (hencode : host.encode text = none → ¬ works) (hwrite : host.write ≠ none → ¬ works) :
    Triple (Beside disk temp_path) (write_temp host temp_path text)
      (Leaves works disk temp_path fun s => host.fdopen = none ∧ host.write = none ∧
        ∃ bytes, host.encode text = some bytes ∧
          s = Function.update disk temp_path (some ⟨bytes, 0o600⟩)) := by
  have hput (t t' : Option Stored) : Function.update (Function.update disk temp_path t) temp_path t' =
      Function.update disk temp_path t' := by rw [Function.update_idem]
  unfold write_temp
  refine leaves_bind (attempt_leaves (fun e h => hfdopen (by rw [h]; exact Option.some_ne_none e))
    fun s hs => hs) ?_
  rintro s ⟨hopen, temp, rfl⟩
  cases hbytes : host.encode text with
  | none => exact .raised _ _ (hencode hbytes) ⟨temp, rfl⟩
  | some bytes =>
    cases hfail : host.write with
    | none => exact .returned _ ⟨hopen, rfl, bytes, rfl, hput _ _⟩
    | some fail =>
      refine .raised fail.1 _ (hwrite ?_) ⟨some ⟨fail.2, 0o600⟩, hput _ _⟩
      rw [hfail]
      exact Option.some_ne_none fail

theorem chmod_temp_leaves {stored : Stored} (horiginal : disk real_path = some stored)
    (hfresh : disk temp_path = none) (hstat : host.stat ≠ none → ¬ works)
    (hchmod : host.chmod ≠ none → ¬ works) (bytes : List UInt8) (mode : Nat) :
    Triple (fun s => s = Function.update disk temp_path (some ⟨bytes, mode⟩))
      (chmod_temp host real_path temp_path)
      (Leaves works disk temp_path fun s => host.stat = none ∧ host.chmod = none ∧
        s = Function.update disk temp_path (some ⟨bytes, stored.mode⟩)) := by
  have hne : real_path ≠ temp_path := by
    rintro rfl
    rw [hfresh] at horiginal
    cases horiginal
  unfold chmod_temp
  refine leaves_bind (attempt_leaves (fun e h => hstat (by rw [h]; exact Option.some_ne_none e))
    fun s hs => ⟨_, hs⟩) ?_
  apply read_leaves
  rintro s ⟨hstat, rfl⟩
  rw [Function.update_of_ne hne, horiginal]
  dsimp only
  refine leaves_bind (P := fun s => s = _) (attempt_leaves
    (fun e h => hchmod (by rw [h]; exact Option.some_ne_none e)) fun s hs => ⟨_, hs⟩) ?_ _ rfl
  apply update_leaves
  rintro s ⟨hchmod, rfl⟩
  refine ⟨hstat, hchmod, ?_⟩
  rw [Function.update_self, Function.update_idem]
  rfl

theorem replace_original_leaves (hfresh : disk temp_path = none) (hreplace : host.replace ≠ none → ¬ works)
    (hne : real_path ≠ temp_path) (stored : Stored) :
    Triple (fun s => s = Function.update disk temp_path (some stored))
      (replace_original host real_path temp_path)
      (Leaves works disk temp_path fun s => host.replace = none ∧
        s = Function.update disk real_path (some stored)) := by
  unfold replace_original
  refine leaves_bind (attempt_leaves (fun e h => hreplace (by rw [h]; exact Option.some_ne_none e))
    fun s hs => ⟨_, hs⟩) ?_
  apply update_leaves
  rintro s ⟨hreplace, rfl⟩
  refine ⟨hreplace, ?_⟩
  have hnone : Function.update disk real_path (some stored) temp_path = none := by
    rw [Function.update_of_ne hne.symm, hfresh]
  rw [Function.update_self, Function.update_comm hne.symm, Function.update_idem, ← hnone,
    Function.update_eq_self]

theorem remove_temp_ends (host : Host K O) (hfresh : disk temp_path = none) {s : Disk} (h : Beside disk temp_path s) :
    remove_temp host temp_path s = (.returned (), disk) ∨
      ∃ e, host.unlink = some e ∧ remove_temp host temp_path s = (.raised e, s) := by
  obtain ⟨temp, rfl⟩ := h
  have hread : remove_temp host temp_path (Function.update disk temp_path temp) =
      (if temp.isSome then (do attempt host.unlink; store temp_path none) else pure () :
        Prog Disk (Exception K) Unit) (Function.update disk temp_path temp) := by
    show (if (Function.update disk temp_path temp temp_path).isSome then _ else _ :
      Prog Disk (Exception K) Unit) _ = _
    rw [Function.update_self]
  have hremoved : Function.update (Function.update disk temp_path temp) temp_path none = disk := by
    rw [Function.update_idem, ← hfresh, Function.update_eq_self]
  rw [hread]
  cases temp with
  | none =>
    rw [Function.update_idem] at hremoved
    rw [hremoved]
    exact .inl rfl
  | some temp =>
    cases hunlink : host.unlink with
    | some e => exact .inr ⟨e, rfl, rfl⟩
    | none => exact .inl (Prod.ext rfl hremoved)

/-- What saving does to the disk. -/
inductive Saved (host : Host K O) (disk : Disk) (real_path text : String) (stored : Stored) :
    Outcome (Exception K) Unit → Disk → Prop
  | returned (bytes : List UInt8) (s : Disk) (hworks : host.Works disk real_path text)
      (hbytes : host.encode text = some bytes)
      (h : s = Function.update disk real_path (some ⟨bytes, stored.mode⟩)) :
      Saved host disk real_path text stored (.returned ()) s
  | raised (e : Exception K) (s : Disk) (hnot : ¬ host.Works disk real_path text)
      (hkept : ∀ path file, disk path = some file → s path = some file)
      (h : host.unlink = none → s = disk) : Saved host disk real_path text stored (.raised e) s

/-- The part that the handler watches over. -/
theorem renames {stored : Stored} (horiginal : disk real_path = some stored)
    (htemp : host.temp_path (dirname real_path) = temp_path) (hfresh : disk temp_path = none)
    (hmkstemp : host.mkstemp = none) :
    Triple (Beside disk temp_path)
      (do
        write_temp host temp_path text
        chmod_temp host real_path temp_path
        replace_original host real_path temp_path)
      (Leaves (host.Works disk real_path text) disk temp_path fun s =>
        host.Works disk real_path text ∧ ∃ bytes, host.encode text = some bytes ∧
          s = Function.update disk real_path (some ⟨bytes, stored.mode⟩)) := by
  have hne : real_path ≠ temp_path := by
    rintro rfl
    rw [hfresh] at horiginal
    cases horiginal
  have hencode (hnone : host.encode text = none) : ¬ host.Works disk real_path text := by
    rintro hworks
    obtain ⟨bytes, hbytes⟩ := hworks.encode
    rw [hnone] at hbytes
    cases hbytes
  refine leaves_bind (write_temp_leaves (fun h hw => h hw.fdopen) hencode fun h hw => h hw.write) ?_
  rintro s ⟨hfdopen, hwrite, bytes, hbytes, hs⟩
  refine leaves_bind (chmod_temp_leaves horiginal hfresh (fun h hw => h hw.stat)
    (fun h hw => h hw.chmod) bytes _) ?_ s hs
  rintro s ⟨hstat, hchmod, hs⟩
  have hrename : host.replace ≠ none → ¬ host.Works disk real_path text := fun h hw => h hw.replace
  refine (replace_original_leaves hfresh hrename hne _).weaken (fun _ h => h) ?_ s hs
  rintro o s (⟨_, hreplace, hs⟩ | ⟨e, _, hnot, hbeside⟩)
  · refine .returned s ⟨⟨hmkstemp, ?_, hfdopen, ⟨bytes, hbytes⟩, hwrite, hstat, hchmod, hreplace⟩,
      bytes, hbytes, hs⟩
    rw [htemp]
    exact hfresh
  · exact .raised e s hnot hbeside

theorem make_temp_run (disk : Disk) (temp_path : String) : make_temp host temp_path disk =
    match host.mkstemp, disk temp_path with
    | some e, _ => (.raised e, disk)
    | none, some _ => (.raised .os_error, disk)
    | none, none => (.returned (), Function.update disk temp_path (some ⟨[], 0o600⟩)) := by
  unfold make_temp
  cases host.mkstemp with
  | some e => rfl
  | none =>
    show (if (disk temp_path).isSome then raise .os_error else store temp_path _ :
      Prog Disk (Exception K) Unit) disk = _
    cases disk temp_path <;> rfl

theorem save_saves {stored : Stored} (horiginal : disk real_path = some stored) :
    Triple (fun s => s = disk) (save host real_path text) (Saved host disk real_path text stored) := by
  unfold save
  dsimp only
  generalize htemp : host.temp_path (dirname real_path) = temp_path
  refine bind_rule (R := fun o s => match o with
    | .returned () => host.mkstemp = none ∧ disk temp_path = none ∧ Beside disk temp_path s
    | .raised e => ¬ host.Works disk real_path text ∧ s = disk
    | .running => False) ?_ (fun _ => ?_) ⟨?_, fun _ h => h.elim⟩
  · rintro s rfl
    rw [make_temp_run]
    cases hmkstemp : host.mkstemp with
    | some e =>
      refine ⟨fun hworks => ?_, rfl⟩
      rw [hworks.mkstemp] at hmkstemp
      cases hmkstemp
    | none =>
      cases hfresh : s temp_path with
      | some file =>
        refine ⟨fun hworks => ?_, rfl⟩
        have hnone := hworks.fresh
        rw [htemp, hfresh] at hnone
        cases hnone
      | none => exact ⟨rfl, rfl, _, rfl⟩
  · rintro s ⟨hmkstemp, hfresh, hbeside⟩
    refine handle_rule (renames horiginal htemp hfresh hmkstemp) ?_ ?_ ?_ s hbeside
    · rintro ⟨⟩ s (⟨_, hworks, bytes, hbytes, hs⟩ | _)
      exact .returned bytes s hworks hbytes hs
    · rintro e s (_ | ⟨_, _, hnot, hbeside⟩)
      have hkept {s : Disk} (hs : Beside disk temp_path s) (path : String) (file : Stored)
          (h : disk path = some file) : s path = some file := by
        obtain ⟨temp, rfl⟩ := hs
        have hne : path ≠ temp_path := by
          rintro rfl
          rw [hfresh] at h
          cases h
        rw [Function.update_of_ne hne, h]
      show Saved _ _ _ _ _ (Prog.bind _ _ s).1 (Prog.bind _ _ s).2
      unfold Prog.bind
      rcases remove_temp_ends host hfresh hbeside with hends | ⟨e', hunlink, hends⟩
      · rw [hends]
        exact .raised e disk hnot (fun _ _ h => h) fun _ => rfl
      · rw [hends]
        refine .raised e' s hnot (hkept hbeside) fun h => ?_
        rw [hunlink] at h
        cases h
    · rintro s ⟨⟩
  · rintro e s ⟨hnot, rfl⟩
    exact .raised e s hnot (fun _ _ h => h) fun _ => rfl

end Save

/-- The file is read, its new text is accepted and every call works. -/
structure Rewrites {K O : Type} (host : Host K O) (disk : Disk) (path : String)
    (can_ids : Dict String Int) (real_path : String) (stored : Stored) (text new : String) : Prop where
  resolved : host.realpath path = .ok real_path
  there : disk real_path = some stored
  readable : host.unreadable real_path = none
  decoded : host.decode stored.bytes = some text
  validated : new_text host real_path can_ids text = .ok new
  works : host.Works disk real_path new

/-- How the call ends: the file alone is replaced, or nothing is. -/
inductive Written {K O : Type} (host : Host K O) (disk : Disk) (path : String)
    (can_ids : Dict String Int) : Outcome (Exception K) String → Disk → Prop
  | returned (real_path : String) (stored : Stored) (text new : String) (bytes : List UInt8) (s : Disk)
      (h : Rewrites host disk path can_ids real_path stored text new)
      (hbytes : host.encode new = some bytes)
      (hs : s = Function.update disk real_path (some ⟨bytes, stored.mode⟩)) :
      Written host disk path can_ids (.returned real_path) s
  | raised (e : Exception K) (s : Disk)
      (hnot : ∀ real_path stored text new,
        ¬ Rewrites host disk path can_ids real_path stored text new)
      (hkept : ∀ path file, disk path = some file → s path = some file)
      (hs : host.unlink = none → s = disk) : Written host disk path can_ids (.raised e) s

section Whole
variable {K O : Type} {host : Host K O} {disk : Disk} {real_path path text : String}
  {can_ids : Dict String Int}

theorem new_text_ok {new : String} (h : new_text host real_path can_ids text = .ok new) :
    ∃ (new' : Stm32.Text) (config : MotorConfig), new = String.ofList new' ∧
      (rewrite_text can_ids text.toList : Except (Exception K) Stm32.Text) = .ok new' ∧
      (parse host.py (String.ofList new') real_path false : Except (Exception K) MotorConfig) =
        .ok config ∧ unchanged config can_ids = [] := by
  unfold new_text at h
  cases hrewrite : (rewrite_text can_ids text.toList : Except (Exception K) Stm32.Text) with
  | error e =>
    rw [hrewrite] at h
    cases h
  | ok new' =>
    rw [hrewrite] at h
    cases hparse : (parse host.py (String.ofList new') real_path false :
        Except (Exception K) MotorConfig) with
    | error e =>
      change (parse host.py (String.ofList new') real_path false >>= fun _ => _) = _ at h
      rw [hparse] at h
      cases h
    | ok config =>
      change (parse host.py (String.ofList new') real_path false >>= fun config =>
        if unchanged config can_ids ≠ [] then _ else pure (String.ofList new')) = _ at h
      rw [hparse] at h
      change (if unchanged config can_ids ≠ [] then _ else pure (String.ofList new')) = _ at h
      split at h
      · cases h
      · rename_i hnone
        cases h
        exact ⟨new', config, rfl, rfl, hparse, not_not.mp hnone⟩

theorem read_stream_ok {file : File} (hfile : host.file disk real_path = file) :
    read_stream host real_path file = .ok text ↔ ∃ stored, disk real_path = some stored ∧
      host.unreadable real_path = none ∧ host.decode stored.bytes = some text := by
  subst hfile
  unfold Host.file read_stream
  cases disk real_path with
  | none => exact iff_of_false (fun h => by cases h) fun ⟨_, h, _⟩ => by cases h
  | some stored =>
    cases host.unreadable real_path with
    | some strerror => exact iff_of_false (fun h => by cases h) fun ⟨_, _, h, _⟩ => by cases h
    | none =>
      dsimp only
      cases hdecode : host.decode stored.bytes with
      | none =>
        refine iff_of_false (fun h => by cases h) ?_
        rintro ⟨_, ⟨⟩, -, h⟩
        rw [hdecode] at h
        cases h
      | some text' =>
        constructor
        · rintro ⟨⟩
          exact ⟨stored, rfl, rfl, hdecode⟩
        · rintro ⟨_, ⟨⟩, -, h⟩
          rw [hdecode] at h
          cases h
          rfl

theorem Rewrites.reads {real_path' : String} {stored : Stored} {new : String}
    (h : Rewrites host disk path can_ids real_path' stored text new)
    (hresolved : host.realpath path = .ok real_path) : real_path' = real_path ∧
      read_stream host real_path (host.file disk real_path) = .ok text := by
  have heq := h.resolved
  rw [hresolved] at heq
  cases heq
  exact ⟨rfl, (read_stream_ok rfl).mpr ⟨stored, h.there, h.readable, h.decoded⟩⟩

theorem write_can_ids_written (host : Host K O) (disk : Disk) (path : String)
    (can_ids : Dict String Int) : Triple (fun s => s = disk) (write_can_ids host path can_ids)
      (Written host disk path can_ids) := by
  have hfails {e : Exception K} {s : Disk} (hs : s = disk) (hnot : ∀ real_path stored text new,
      ¬ Rewrites host disk path can_ids real_path stored text new) :
      Written host disk path can_ids (.raised e) s := by
    subst hs
    exact .raised e s hnot (fun _ _ h => h) fun _ => rfl
  unfold write_can_ids
  refine lift_bind_rule (fun real_path hresolved => ?_) fun e hresolved s hs => ?_
  · refine read_bind_rule fun file => ?_
    refine lift_bind_rule (fun text hread => ?_) fun e hread s ⟨hs, hfile⟩ => ?_
    · refine lift_bind_rule (fun new hnew => ?_) fun e hnew s ⟨hs, hfile⟩ => ?_
      · rintro _ ⟨rfl, hfile⟩
        obtain ⟨stored, hthere, hreadable, hdecoded⟩ := (read_stream_ok hfile).mp hread
        refine bind_rule (save_saves hthere) (fun _ => ?_) ⟨?_, ?_⟩ _ rfl
        · rintro s (⟨bytes, _, hworks, hbytes, hs⟩ | _)
          exact .returned real_path stored text new bytes s
            ⟨hresolved, hthere, hreadable, hdecoded, hnew, hworks⟩ hbytes hs
        · rintro e s (_ | ⟨_, _, hnot, hkept, hs⟩)
          refine .raised e s ?_ hkept hs
          intro _ _ _ _ h
          obtain ⟨rfl, hread'⟩ := h.reads hresolved
          rw [hfile, hread] at hread'
          cases hread'
          have hnew' := h.validated
          rw [hnew] at hnew'
          cases hnew'
          exact hnot h.works
        · rintro s ⟨⟩
      · apply hfails hs
        intro _ _ _ _ h
        subst hs
        obtain ⟨rfl, hread'⟩ := h.reads hresolved
        rw [hfile, hread] at hread'
        cases hread'
        have hnew' := h.validated
        rw [hnew] at hnew'
        cases hnew'
    · apply hfails hs
      intro _ _ _ _ h
      subst hs
      obtain ⟨rfl, hread'⟩ := h.reads hresolved
      rw [hfile, hread] at hread'
      cases hread'
  · apply hfails hs
    intro _ _ _ _ h
    have heq := h.resolved
    rw [hresolved] at heq
    cases heq

end Whole

section Block
variable {K O : Type} {host : Host K O} {disk : Disk} {path real_path : String}
  {can_ids : Dict String Int} {layout : Layout} {final : Bool} {config : MotorConfig} {stored : Stored}

/-- The file is an accepted motors.yaml in block style, and the new CAN IDs are for joints that it
lists. -/
structure BlockFile (host : Host K O) (disk : Disk) (path : String) (can_ids : Dict String Int)
    (layout : Layout) (final : Bool) (config : MotorConfig) (real_path : String) (stored : Stored) :
    Prop where
  resolved : host.realpath path = .ok real_path
  there : disk real_path = some stored
  decoded : host.decode stored.bytes = some (String.ofList (layout.text final))
  ended : layout.Ended final
  accepted : (parse host.py (String.ofList (layout.text final)) real_path false :
    Except (Exception K) MotorConfig) = .ok config
  keys : can_ids.keys.Nodup
  listed : ∀ joint ∈ can_ids.keys, joint ∈ config.motors.map Motor.joint

/-- PyYAML reads the file, with the old CAN IDs and with the new ones. -/
structure ReadsBlock (py : PyYaml O) (resolve : String → String) (can_ids : Dict String Int)
    (layout : Layout) (final : Bool) : Prop where
  scalars : ReadsScalars py resolve
  old : Composes py resolve layout final
  new : Composes py resolve (layout.replace can_ids) final

theorem replace_joint (motor : Motor) : (motor.replace can_ids).joint = motor.joint := by
  unfold Motor.replace
  cases can_ids.get motor.joint <;> rfl

theorem get_replace (config : MotorConfig) (joint : String) :
    (config.replace can_ids).get joint = (config.get joint).map (Motor.replace can_ids) := by
  unfold MotorConfig.replace MotorConfig.get
  rw [List.find?_map]
  congr 2
  funext motor
  show decide ((motor.replace can_ids).joint = joint) = _
  rw [replace_joint]

/-- The new CAN IDs are found in the configuration. -/
theorem unchanged_nil_iff : unchanged config can_ids = [] ↔
    ∀ item ∈ can_ids, ∃ motor, config.get item.1 = some motor ∧ (motor.can_id : Int) = item.2 := by
  unfold unchanged
  rw [List.map_eq_nil_iff, List.filter_eq_nil_iff]
  apply forall₂_congr
  intro item _
  cases config.get item.1 with
  | none => exact iff_of_false (fun h => h rfl) fun ⟨_, h, _⟩ => by cases h
  | some motor => simp

/-- Each new CAN ID is found in the new configuration. -/
theorem unchanged_replace (h : Assignable config can_ids) (hkeys : can_ids.keys.Nodup)
    (hlisted : ∀ joint ∈ can_ids.keys, joint ∈ config.motors.map Motor.joint) :
    unchanged (config.replace can_ids) can_ids = [] := by
  apply unchanged_nil_iff.mpr
  rintro ⟨joint, i⟩ hitem
  obtain ⟨motor, hmotor, hjoint⟩ := List.mem_map.mp (hlisted joint (List.mem_map_of_mem hitem))
  cases hget : config.get joint with
  | none => exact absurd (List.find?_eq_none.mp hget motor hmotor) (by simp [hjoint])
  | some first =>
    have hfirst : first.joint = joint := by simpa using List.find?_some hget
    have hnew : can_ids.get first.joint = some i := by
      rw [hfirst]
      exact (lookup_iff_mem hkeys).mpr hitem
    have hrange := h.range _ hitem
    refine ⟨first.replace can_ids, by rw [get_replace, hget, Option.map_some], ?_⟩
    unfold Motor.replace
    dsimp only at hrange ⊢
    rw [hnew]
    exact Int.toNat_of_nonneg (by omega)

theorem new_text_layout_iff {resolve : String → String}
    (hfile : BlockFile host disk path can_ids layout final config real_path stored)
    (hreads : ReadsBlock host.py resolve can_ids layout final) (hcolumn : layout.column = 0)
    (new : String) :
    new_text host real_path can_ids (String.ofList (layout.text final)) = .ok new ↔
      Assignable config can_ids ∧ new = String.ofList ((layout.replace can_ids).text final) := by
  unfold new_text
  rw [String.toList_ofList, rewrite_text_layout can_ids layout hcolumn hfile.ended]
  cases hprint : layout.printable can_ids with
  | false =>
    refine iff_of_false (fun h => by cases h) ?_
    rintro ⟨hassignable, -⟩
    rw [hassignable.printable hfile.keys layout] at hprint
    cases hprint
  | true =>
    have hparse := parse_replaced_iff hreads.scalars hreads.old hreads.new hfile.accepted hprint
      hfile.keys hfile.listed
    show (parse host.py (String.ofList ((layout.replace can_ids).text final)) real_path false >>=
      fun config => if unchanged config can_ids ≠ [] then _ else _) = _ ↔ _
    cases hnew : (parse host.py (String.ofList ((layout.replace can_ids).text final)) real_path false :
        Except (Exception K) MotorConfig) with
    | error e =>
      refine iff_of_false (fun h => by cases h) ?_
      rintro ⟨hassignable, -⟩
      rw [(hparse _).mpr ⟨hassignable, rfl⟩] at hnew
      cases hnew
    | ok config' =>
      obtain ⟨hassignable, rfl⟩ := (hparse config').mp hnew
      show (if unchanged (config.replace can_ids) can_ids ≠ [] then _ else _) = _ ↔ _
      rw [unchanged_replace hassignable hfile.keys hfile.listed, if_neg (not_not.mpr rfl)]
      constructor
      · rintro ⟨⟩
        exact ⟨hassignable, rfl⟩
      · rintro ⟨-, rfl⟩
        rfl

/-- In a file that is indented as a whole no CAN ID is found, so that the joints have theirs
already or the file is refused. -/
theorem new_text_indented_iff
    (hfile : BlockFile host disk path can_ids layout final config real_path stored)
    (hcolumn : 0 < layout.column) (new : String) :
    new_text host real_path can_ids (String.ofList (layout.text final)) = .ok new ↔
      (∀ item ∈ can_ids, ∃ motor, config.get item.1 = some motor ∧ (motor.can_id : Int) = item.2) ∧
        new = String.ofList (layout.text final) := by
  unfold new_text
  rw [String.toList_ofList, rewrite_text_indented can_ids layout hcolumn hfile.ended,
    ← unchanged_nil_iff]
  show (parse host.py (String.ofList (layout.text final)) real_path false >>=
    fun config => if unchanged config can_ids ≠ [] then _ else _) = _ ↔ _
  rw [hfile.accepted]
  show (if unchanged config can_ids ≠ [] then _ else _) = _ ↔ _
  split
  · rename_i hmissing
    exact iff_of_false (fun h => by cases h) fun h => hmissing h.1
  · rename_i hfound
    constructor
    · rintro ⟨⟩
      exact ⟨not_not.mp hfound, rfl⟩
    · rintro ⟨-, rfl⟩
      rfl

/-- What a file in block style makes of the call, if these new texts are the validated ones. -/
theorem Written.block {o : Outcome (Exception K) String} {s : Disk} {P : Prop} {new : String}
    (h : Written host disk path can_ids o s)
    (hfile : BlockFile host disk path can_ids layout final config real_path stored)
    (hnew : ∀ text, new_text host real_path can_ids (String.ofList (layout.text final)) = .ok text ↔
      P ∧ text = new) :
    (∀ result s', (o, s) = (.returned result, s') → P ∧ result = real_path ∧
      ∃ bytes, host.encode new = some bytes ∧
        s' = Function.update disk real_path (some ⟨bytes, stored.mode⟩)) ∧
    ((∃ result s', (o, s) = (.returned result, s')) ↔
      P ∧ host.unreadable real_path = none ∧ host.Works disk real_path new) := by
  cases h with
  | returned real_path' stored' text text' bytes _ h hbytes hs =>
    obtain ⟨hresolved, hthere, hreadable, hdecoded, hvalidated, hworks⟩ := h
    rw [hfile.resolved] at hresolved
    cases hresolved
    rw [hfile.there] at hthere
    cases hthere
    rw [hfile.decoded] at hdecoded
    cases hdecoded
    obtain ⟨hp, rfl⟩ := (hnew text').mp hvalidated
    constructor
    · rintro result _ ⟨⟩
      exact ⟨hp, rfl, bytes, hbytes, hs⟩
    · exact iff_of_true ⟨_, _, rfl⟩ ⟨hp, hreadable, hworks⟩
  | raised e _ hnot hkept hs =>
    refine ⟨fun _ _ heq => by (cases heq), iff_of_false ?_ ?_⟩
    · rintro ⟨_, _, heq⟩
      cases heq
    · rintro ⟨hp, hreadable, hworks⟩
      exact hnot _ _ _ _ ⟨hfile.resolved, hfile.there, hreadable, hfile.decoded,
        (hnew _).mpr ⟨hp, rfl⟩, hworks⟩

/-- In a file in block style the values of the mapped joints alone are replaced, if these can be
assigned. A file that is indented as a whole stays as it is, and is refused unless it has the CAN
IDs already. An exception leaves the disk as it was. -/
theorem write_can_ids_surgical (host : Host K O) (disk : Disk) (path : String)
    (can_ids : Dict String Int) :
    (∀ (resolve : String → String) (layout : Layout) (final : Bool) (config : MotorConfig)
        (real_path : String) (stored : Stored),
      BlockFile host disk path can_ids layout final config real_path stored →
      (layout.column = 0 → ReadsBlock host.py resolve can_ids layout final →
        let new := String.ofList ((layout.replace can_ids).text final)
        (∀ result s, write_can_ids host path can_ids disk = (.returned result, s) →
          result = real_path ∧
          (∃ bytes, host.encode new = some bytes ∧
            s = Function.update disk real_path (some ⟨bytes, stored.mode⟩)) ∧
          (parse host.py new real_path false : Except (Exception K) MotorConfig) =
            .ok (config.replace can_ids)) ∧
        ((∃ result s, write_can_ids host path can_ids disk = (.returned result, s)) ↔
          Assignable config can_ids ∧ host.unreadable real_path = none ∧
            host.Works disk real_path new)) ∧
      (0 < layout.column →
        let text := String.ofList (layout.text final)
        (∀ result s, write_can_ids host path can_ids disk = (.returned result, s) →
          result = real_path ∧ ∃ bytes, host.encode text = some bytes ∧
            s = Function.update disk real_path (some ⟨bytes, stored.mode⟩)) ∧
        ((∃ result s, write_can_ids host path can_ids disk = (.returned result, s)) ↔
          (∀ item ∈ can_ids, ∃ motor, config.get item.1 = some motor ∧
            (motor.can_id : Int) = item.2) ∧
          host.unreadable real_path = none ∧ host.Works disk real_path text))) ∧
    ∀ e s, write_can_ids host path can_ids disk = (.raised e, s) →
      (∀ path file, disk path = some file → s path = some file) ∧ (host.unlink = none → s = disk) := by
  have hwritten := write_can_ids_written host disk path can_ids disk rfl
  generalize write_can_ids host path can_ids disk = run at hwritten
  obtain ⟨o, s⟩ := run
  refine ⟨fun resolve layout final config real_path stored hfile => ⟨?_, ?_⟩, ?_⟩
  · intro hcolumn hreads
    obtain ⟨hreturned, hreturns⟩ := hwritten.block hfile (new_text_layout_iff hfile hreads hcolumn)
    refine ⟨fun result s' hrun => ?_, hreturns⟩
    obtain ⟨hassignable, hresult, hdisk⟩ := hreturned result s' hrun
    refine ⟨hresult, hdisk, ?_⟩
    exact (parse_replaced_iff hreads.scalars hreads.old hreads.new hfile.accepted
      (hassignable.printable hfile.keys layout) hfile.keys hfile.listed _).mpr ⟨hassignable, rfl⟩
  · intro hcolumn
    obtain ⟨hreturned, hreturns⟩ := hwritten.block hfile (new_text_indented_iff hfile hcolumn)
    exact ⟨fun result s' hrun => (hreturned result s' hrun).2, hreturns⟩
  · rintro e s' hrun
    cases hwritten with
    | returned _ _ _ _ _ _ _ _ _ => cases hrun
    | raised e _ hnot hkept hs =>
      cases hrun
      exact ⟨hkept, hs⟩

end Block

section Examples

def plain_int (text : String) : Int :=
  match text.toList with
  | '-' :: digits => -(Nat.ofDigitChars 10 digits 0 : Nat)
  | digits => (Nat.ofDigitChars 10 digits 0 : Nat)

def plain_tag (text : String) : String :=
  if (text.toList.head?.map fun ch => ch.isDigit || ch == '-') = some true then "int" else "str"

/-- PyYAML with its composer given by a table. -/
def table_yaml (documents : Dict String Node) : PyYaml Unit where
  compose text :=
    match documents.get text with
    | some root => .ok (some root)
    | none => .error (.yaml_error "")
  scalar tag value := .ok (if tag = "int" then .int (plain_int value) else .str value)
  same a b := a == b
  text _ := some ""
  repr _ := some ""

theorem plain_int_text (i : Int) : plain_tag (String.ofList (int_text i)) = "int" ∧
    plain_int (String.ofList (int_text i)) = i := by
  unfold plain_tag plain_int int_text
  rw [String.toList_ofList]
  obtain ⟨ch, digits, hdigits⟩ := List.exists_cons_of_ne_nil (Nat.toDigits_ne_nil (n := i.natAbs) (b := 10))
  have hvalue : (Nat.ofDigitChars 10 (ch :: digits) 0 : Nat) = i.natAbs := by
    rw [← hdigits]
    exact Nat.ofDigitChars_ten_toDigits
  have hch : ch.isDigit = true :=
    Nat.isDigit_of_mem_toDigits (by omega) (by omega) (hdigits ▸ List.mem_cons_self)
  rw [hdigits]
  by_cases hneg : i < 0
  · rw [if_pos hneg]
    refine ⟨rfl, ?_⟩
    show -((Nat.ofDigitChars 10 (ch :: digits) 0 : Nat) : Int) = i
    rw [hvalue]
    omega
  · rw [if_neg hneg, List.nil_append]
    constructor
    · rw [List.head?_cons, Option.map_some, hch, Bool.true_or]
      rfl
    · have hsign : ch ≠ '-' := by
        rintro rfl
        exact absurd hch (by decide)
      split
      · rename_i heq
        cases heq
        exact absurd rfl hsign
      · rw [hvalue]
        omega

theorem table_reads (documents : Dict String Node) : ReadsScalars (table_yaml documents) plain_tag where
  name := by
    intro name hname
    have hall : ("motors" :: (JOINTS ++ KEYS)).all (fun name => plain_tag name == "str") = true := by
      decide +kernel
    have htag := beq_iff_eq.mp (List.all_eq_true.mp hall name hname)
    unfold table_yaml
    rw [htag]
    rfl
  number := by
    intro i text htext
    obtain ⟨htag, hvalue⟩ := plain_int_text i
    unfold str_int at htext
    split at htext
    · cases htext
      unfold table_yaml
      rw [htag]
      exact congrArg (fun i => Except.ok (Atom.int i)) hvalue
    · cases htext
  same := by
    intro a b
    unfold table_yaml
    dsimp only
    rw [Bool.eq_iff_iff, beq_iff_eq, beq_iff_eq, Atom.str.injEq]

def untrailed : Trailing := { apart := fun h => by cases h }

def comment_text (text : String) (h : (text.toList.any is_break) = false) : Comment :=
  ⟨text.toList, fun ch hch => Bool.eq_false_iff.mpr (List.any_eq_false.mp h ch hch)⟩

def int_line (key : String) (known : key ∈ KEYS) (i : Int) : KeyLine :=
  { key := key, known := known, gap_pos := Nat.one_pos, value := int_token i, trailing := untrailed }

def wheel_block (indent : Nat) (joint : String) (known : joint ∈ JOINTS) (can_id direction : Int) :
    JointBlock :=
  { joint := joint
    known := known
    header := { trailing := untrailed }
    indent := indent
    body := [.inl (.comment indent (comment_text " checked" rfl)),
      .inr (int_line "can_id" (by decide) can_id), .inl (.blank 0),
      .inr (int_line "direction" (by decide) direction)] }

/-- The file of two wheels with `motors:` in this column. -/
def wheels_at (column : Nat) (left right : Int) : Layout :=
  { top := [.comment column (comment_text " the wheels" rfl)]
    column := column
    header := { trailing := untrailed }
    lead := []
    joint_indent := column + 2
    under_motors := by omega
    blocks := [wheel_block (column + 4) "wheel_joint_left" (by decide) left 1,
      wheel_block (column + 4) "wheel_joint_right" (by decide) right (-1)]
    deeper := by
      intro block hblock
      rcases List.mem_pair.mp hblock with rfl | rfl <;> exact (by omega : column + 2 < column + 4) }

def wheel_layout (left right : Int) : Layout := wheels_at 0 left right

def plain_scalar (text : String) : Node := .scalar "" (plain_tag text) text

def entry_document (can_id direction : Int) : Node :=
  .mapping "" [(plain_scalar "can_id", plain_scalar (String.ofList (int_text can_id))),
    (plain_scalar "direction", plain_scalar (String.ofList (int_text direction)))]

def wheel_document (left right : Int) : Node :=
  .mapping "" [(plain_scalar "motors", .mapping ""
    [(plain_scalar "wheel_joint_left", entry_document left 1),
      (plain_scalar "wheel_joint_right", entry_document right (-1))])]

theorem wheel_document_block (column : Nat) (left right : Int) :
    IsBlock plain_tag (wheels_at column left right) (wheel_document left right) := by
  have hentry (joint : String) (known : joint ∈ JOINTS) (can_id direction : Int) : IsEntry plain_tag
      (wheel_block (column + 4) joint known can_id direction) (entry_document can_id direction) :=
    ⟨_, _, rfl, .cons ⟨⟨_, rfl⟩, _, rfl⟩ (.cons ⟨⟨_, rfl⟩, _, rfl⟩ .nil)⟩
  exact ⟨_, _, _, _, rfl, ⟨_, rfl⟩,
    .cons ⟨⟨_, rfl⟩, hentry _ _ _ _⟩ (.cons ⟨⟨_, rfl⟩, hentry _ _ _ _⟩ .nil)⟩

def text_at (column : Nat) (left : Int) : String :=
  String.ofList ((wheels_at column left 13).text true)

def wheel_text (left : Int) : String := text_at 0 left

def char_bytes (text : String) : List UInt8 := text.toList.map fun ch => UInt8.ofNat ch.toNat

def documents_at (column : Nat) : Dict String Node :=
  [(text_at column 12, wheel_document 12 13), (text_at column 20, wheel_document 20 13)]

def wheel_documents : Dict String Node := documents_at 0

def wheel_host : Host ℚ Unit where
  py := table_yaml wheel_documents
  decode bytes := some (String.ofList (bytes.map fun b => Char.ofNat b.toNat))
  encode text := some (char_bytes text)
  realpath path := .ok path
  unreadable _ := none
  temp_path directory := directory ++ "/.motors-a1b2c3d4.yaml"
  mkstemp := none
  fdopen := none
  write := none
  stat := none
  chmod := none
  replace := none
  unlink := none

/-- A text of characters that are bytes reads back. -/
theorem decode_char_bytes {text : String}
    (h : (text.toList.all fun ch => decide (ch.toNat < 256)) = true) :
    wheel_host.decode (char_bytes text) = some text := by
  have hback : (char_bytes text).map (fun b => Char.ofNat b.toNat) = text.toList := by
    unfold char_bytes
    rw [List.map_map]
    refine (List.map_congr_left fun ch hch => ?_).trans (List.map_id _)
    have hlt : ch.toNat < 256 := of_decide_eq_true (List.all_eq_true.mp h ch hch)
    show Char.ofNat (UInt8.ofNat ch.toNat).toNat = ch
    rw [UInt8.toNat_ofNat', Nat.mod_eq_of_lt hlt, Char.ofNat_toNat]
  unfold wheel_host
  dsimp only
  rw [hback, String.ofList_toList]

def disk_at (column : Nat) : Disk := fun path =>
  if path = "/ws/motors.yaml" then some ⟨char_bytes (text_at column 12), 0o644⟩ else none

def wheel_disk : Disk := disk_at 0

theorem wheels_replace (column : Nat) :
    (wheels_at column 12 13).replace [("wheel_joint_left", 20)] = wheels_at column 20 13 := rfl

theorem composes_at {column : Nat} (hne : (text_at column 20 == text_at column 12) = false) (left : Int)
    (h : left = 12 ∨ left = 20) :
    (table_yaml (documents_at column)).compose (text_at column left) =
      .ok (some (wheel_document left 13)) := by
  have hget : (documents_at column).get (text_at column left) = some (wheel_document left 13) := by
    unfold documents_at Dict.get
    rcases h with rfl | rfl
    · exact List.lookup_cons_self
    · rw [List.lookup_cons, hne]
      exact List.lookup_cons_self
  unfold table_yaml
  dsimp only
  rw [hget]

theorem wheel_composes (left : Int) (h : left = 12 ∨ left = 20) :
    (table_yaml wheel_documents).compose (wheel_text left) = .ok (some (wheel_document left 13)) := by
  have hne : (text_at 0 20 == text_at 0 12) = false := by decide +kernel
  unfold wheel_documents wheel_text
  exact composes_at hne left h

theorem reads_at {column : Nat} (hne : (text_at column 20 == text_at column 12) = false) :
    ReadsBlock (table_yaml (documents_at column)) plain_tag [("wheel_joint_left", 20)]
      (wheels_at column 12 13) true := by
  have hcomposes (left : Int) (h : left = 12 ∨ left = 20) :
      Composes (table_yaml (documents_at column)) plain_tag (wheels_at column left 13) true := by
    refine ⟨wheel_document left 13, ?_, wheel_document_block column left 13⟩
    have hcompose := composes_at hne left h
    unfold text_at at hcompose
    exact hcompose
  exact ⟨table_reads _, hcomposes 12 (.inl rfl), wheels_replace column ▸ hcomposes 20 (.inr rfl)⟩

theorem wheel_reads : ReadsBlock (table_yaml wheel_documents) plain_tag [("wheel_joint_left", 20)]
    (wheel_layout 12 13) true := by
  have hne : (text_at 0 20 == text_at 0 12) = false := by decide +kernel
  exact reads_at hne

theorem decoded_at {column : Nat}
    (h : ((text_at column 12).toList.all fun ch => decide (ch.toNat < 256)) = true) :
    wheel_host.decode (char_bytes (text_at column 12)) =
      some (String.ofList ((wheels_at column 12 13).text true)) := decode_char_bytes h

theorem wheel_file : BlockFile wheel_host wheel_disk "/ws/motors.yaml" [("wheel_joint_left", 20)]
    (wheel_layout 12 13) true ⟨"/ws/motors.yaml", [⟨"wheel_joint_left", 12, 1, false⟩,
      ⟨"wheel_joint_right", 13, -1, false⟩]⟩ "/ws/motors.yaml"
    ⟨char_bytes (wheel_text 12), 0o644⟩ where
  resolved := rfl
  there := rfl
  decoded := by
    unfold wheel_text wheel_layout
    dsimp only
    have hbytes : ((text_at 0 12).toList.all fun ch => decide (ch.toNat < 256)) = true := by
      unfold text_at
      rw [String.toList_ofList]
      decide +kernel
    exact decoded_at hbytes
  ended := fun h => by cases h
  accepted := by decide +kernel
  keys := by decide
  listed := by decide

/-- The left wheel gets the CAN ID 20, and the file alone changes. -/
theorem wheel_rewritten : ∃ s bytes,
    write_can_ids wheel_host "/ws/motors.yaml" [("wheel_joint_left", 20)] wheel_disk =
      (.returned "/ws/motors.yaml", s) ∧
    wheel_host.encode (wheel_text 20) = some bytes ∧
    s = Function.update wheel_disk "/ws/motors.yaml" (some ⟨bytes, 0o644⟩) := by
  have h := ((write_can_ids_surgical wheel_host wheel_disk "/ws/motors.yaml"
    [("wheel_joint_left", 20)]).1 plain_tag _ _ _ _ _ wheel_file).1 rfl wheel_reads
  obtain ⟨result, s, hrun⟩ := h.2.mpr ⟨⟨by decide, by decide⟩, rfl, rfl, rfl, rfl, ⟨_, rfl⟩, rfl, rfl,
    rfl, rfl⟩
  obtain ⟨rfl, ⟨bytes, hbytes, hs⟩, -⟩ := h.1 result s hrun
  unfold wheel_layout at hbytes
  rw [wheels_replace] at hbytes
  exact ⟨s, bytes, hrun, hbytes, hs⟩

/-- The host of the file whose lines all stand two columns further to the right. -/
def indented_host : Host ℚ Unit := { wheel_host with py := table_yaml (documents_at 2) }

/-- A host that can neither rename nor remove. -/
def stuck_host : Host ℚ Unit := { wheel_host with replace := some .os_error, unlink := some .os_error }

theorem indented_file : BlockFile indented_host (disk_at 2) "/ws/motors.yaml" [("wheel_joint_left", 20)]
    (wheels_at 2 12 13) true ⟨"/ws/motors.yaml", [⟨"wheel_joint_left", 12, 1, false⟩,
      ⟨"wheel_joint_right", 13, -1, false⟩]⟩ "/ws/motors.yaml"
    ⟨char_bytes (text_at 2 12), 0o644⟩ where
  resolved := rfl
  there := rfl
  decoded := by
    unfold indented_host
    dsimp only
    have hbytes : ((text_at 2 12).toList.all fun ch => decide (ch.toNat < 256)) = true := by
      unfold text_at
      rw [String.toList_ofList]
      decide +kernel
    exact decoded_at hbytes
  ended := fun h => by cases h
  accepted := by decide +kernel
  keys := by decide
  listed := by decide

/-- In the indented file the new CAN ID, which can be assigned, is not found; and the temporary file
is left behind if it cannot be removed. -/
theorem indented_refused :
    (BlockFile indented_host (disk_at 2) "/ws/motors.yaml" [("wheel_joint_left", 20)]
        (wheels_at 2 12 13) true ⟨"/ws/motors.yaml", [⟨"wheel_joint_left", 12, 1, false⟩,
          ⟨"wheel_joint_right", 13, -1, false⟩]⟩ "/ws/motors.yaml" ⟨char_bytes (text_at 2 12), 0o644⟩ ∧
      ReadsBlock indented_host.py plain_tag [("wheel_joint_left", 20)] (wheels_at 2 12 13) true ∧
      Assignable ⟨"/ws/motors.yaml", [⟨"wheel_joint_left", 12, 1, false⟩,
        ⟨"wheel_joint_right", 13, -1, false⟩]⟩ [("wheel_joint_left", 20)] ∧
      indented_host.Works (disk_at 2) "/ws/motors.yaml" (text_at 2 20) ∧
      (write_can_ids indented_host "/ws/motors.yaml" [("wheel_joint_left", 20)] (disk_at 2)).1 =
        .raised (.motor_config_error ("Could not find the can_id line of wheel_joint_left in " ++
          "/ws/motors.yaml; write it in block style ('can_id: <n>' on its own line) or edit it by hand."))) ∧
    (write_can_ids stuck_host "/ws/motors.yaml" [("wheel_joint_left", 20)] wheel_disk).1 =
      .raised .os_error ∧
    ((write_can_ids stuck_host "/ws/motors.yaml" [("wheel_joint_left", 20)] wheel_disk).2
      "/ws/.motors-a1b2c3d4.yaml").isSome = true := by
  have hne : (text_at 2 20 == text_at 2 12) = false := by decide +kernel
  have hreads := reads_at hne
  refine ⟨⟨indented_file, hreads, ⟨by decide, by decide⟩, ?_, ?_⟩, ?_⟩
  · exact ⟨rfl, rfl, rfl, ⟨_, rfl⟩, rfl, rfl, rfl, rfl⟩
  · decide +kernel
  · decide +kernel

end Examples

end IotRobot.Tool
