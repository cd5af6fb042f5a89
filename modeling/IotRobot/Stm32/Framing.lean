import IotRobot.Lib.Decimal
import IotRobot.Lib.Framing
import IotRobot.Stm32.Bridge

/-!
# Lines from the serial port

`Stm32Bridge.read_lines` over whatever the port delivers and whenever it does. The buffer is
dropped once it is too long, also when the rest of its line is still to come.
-/

namespace IotRobot.Stm32

open Lib

set_option autoImplicit false

/-- A line is at most ~40 bytes; anything much longer is noise, e.g. a wrong baud rate. -/
def MAX_LINE_BYTES : Nat := 256

/-- What one round of the loop meets. -/
structure Round (β K : Type) where
  /-- `running()` at the top of the loop -/
  running : Bool := true
  /-- what `readline` returned, `none` for a `SerialException` or an `OSError` -/
  read : Option (List β)
  now : K
  /-- `running()` before the line is handled -/
  still_running : Bool := true
  /-- `handle_line` did not raise -/
  handled : Bool := true
  /-- `context.ok()` after something has raised -/
  context_ok : Bool := true

def Round.map {β γ K : Type} (f : List β → List γ) (round : Round β K) : Round γ K :=
  { running := round.running
    read := round.read.map f
    now := round.now
    still_running := round.still_running
    handled := round.handled
    context_ok := round.context_ok }

/-- What the loop logs, and the lines it hands to `handle_line`. -/
inductive Notice (β : Type) where
  | lost
  | no_data
  | resumed
  | line (bytes : List β)

/-- How the loop ends. -/
inductive Ended where
  | stopped
  | lost
  | raised

structure Reader (β K : Type) where
  pending : List β := []
  last_line : K
  stale_logged : Bool := false

/-- The bridge runs and nothing fails. -/
structure Round.Live {β K : Type} (round : Round β K) : Prop where
  running : round.running = true
  read : round.read.isSome
  still_running : round.still_running = true
  handled : round.handled = true

def chunks_of {β K : Type} (rounds : List (Round β K)) : List (List β) :=
  rounds.filterMap Round.read

/-- What the board sent in these rounds. -/
def stream_of {β K : Type} (rounds : List (Round β K)) : List β := (chunks_of rounds).flatten

section ReadLines
variable {β K : Type} [Field K] [LinearOrder K] (newline : β → Bool) (stale_timeout : K)

def read_round (s : Reader β K) (round : Round β K) :
    List (Notice β) × Except Ended (Reader β K) :=
  if round.running = false then ([], .error .stopped)
  else
    match round.read with
    | none => (if round.context_ok then [.lost] else [], .error .lost)
    | some chunk =>
      let pending := s.pending ++ chunk
      if terminated newline pending = false then
        let stale : Bool := !s.stale_logged && stale_timeout < round.now - s.last_line
        (if stale then [.no_data] else [],
          .ok { pending := if MAX_LINE_BYTES < pending.length then [] else pending
                last_line := s.last_line
                stale_logged := s.stale_logged || stale })
      else
        let resumed := if s.stale_logged then [.resumed] else []
        if round.still_running = false then (resumed, .error .stopped)
        else
          (resumed ++ [.line pending],
            if round.handled then .ok { last_line := round.now }
            -- the context can still shut down before a publish, which then raises
            else .error (if round.context_ok then .raised else .stopped))

def read_lines (s : Reader β K) : List (Round β K) → List (Notice β)
  | [] => []
  | round :: rounds =>
    let (notices, next) := read_round newline stale_timeout s round
    notices ++ match next with
      | .error _ => []
      | .ok s => read_lines s rounds

/-- The lines that `handle_line` gets. -/
def lines_of (notices : List (Notice β)) : List (List β) :=
  notices.filterMap fun
    | .line bytes => some bytes
    | _ => none

/-- The lines from a freshly opened port. -/
def passed (start : K) (rounds : List (Round β K)) : List (List β) :=
  lines_of (read_lines newline stale_timeout { last_line := start } rounds)

variable {newline stale_timeout} {rounds : List (Round β K)}

theorem lines_of_append (first second : List (Notice β)) :
    lines_of (first ++ second) = lines_of first ++ lines_of second :=
  List.filterMap_append

/-- A round of a bridge that runs: the line it completes and the buffer it leaves. -/
theorem read_round_live (newline : β → Bool) (stale_timeout : K) {round : Round β K} (h : round.Live) {chunk : List β}
    (hread : round.read = some chunk) (s : Reader β K) :
    ∃ notices next, read_round newline stale_timeout s round = (notices, .ok next) ∧
      if terminated newline (s.pending ++ chunk) then
        lines_of notices = [s.pending ++ chunk] ∧ next.pending = []
      else lines_of notices = [] ∧ next.pending =
        if MAX_LINE_BYTES < (s.pending ++ chunk).length then [] else s.pending ++ chunk := by
  unfold read_round
  rw [if_neg (by rw [h.running]; exact Bool.noConfusion), hread]
  dsimp only
  cases hterm : terminated newline (s.pending ++ chunk) with
  | false =>
    rw [if_pos rfl]
    refine ⟨_, _, rfl, ?_⟩
    rw [if_neg Bool.false_ne_true]
    refine ⟨?_, rfl⟩
    split <;> rfl
  | true =>
    rw [if_neg Bool.noConfusion, if_neg (by rw [h.still_running]; exact Bool.noConfusion),
      if_pos h.handled]
    refine ⟨_, _, rfl, ?_⟩
    rw [if_pos rfl, lines_of_append]
    refine ⟨?_, rfl⟩
    cases s.stale_logged <;> rfl

/-- The loop is the reassembly of the chunks: clock and warnings make no difference. -/
theorem lines_read_lines (h : ∀ round ∈ rounds, round.Live) (s : Reader β K) :
    lines_of (read_lines newline stale_timeout s rounds) =
      reassemble newline MAX_LINE_BYTES s.pending (chunks_of rounds) := by
  induction rounds generalizing s with
  | nil => rfl
  | cons round rounds ih =>
    have hlive := h round List.mem_cons_self
    obtain ⟨chunk, hread⟩ := Option.isSome_iff_exists.mp hlive.read
    obtain ⟨notices, next, hround, hspec⟩ := read_round_live newline stale_timeout hlive hread s
    have hchunks : chunks_of (round :: rounds) = chunk :: chunks_of rounds :=
      List.filterMap_cons_some hread
    rw [read_lines, hround, hchunks, reassemble]
    dsimp only
    rw [lines_of_append, ih (fun r hr => h r (List.mem_cons_of_mem _ hr))]
    split at hspec
    · rename_i hterm
      rw [if_pos hterm, hspec.1, hspec.2, List.singleton_append]
    · rename_i hterm
      rw [if_neg hterm, hspec.1, hspec.2, List.nil_append]

end ReadLines

/-- `decode("ascii", errors="replace")`. -/
def decode_ascii (bytes : List UInt8) : Text :=
  bytes.map fun byte => if byte < 0x80 then Char.ofNat byte.toNat else Char.ofNat 0xFFFD

/-- What the bridge publishes for the lines it is passed. -/
def publish_lines {K : Type} [Field K] [LinearOrder K] (p : RangeLimits K)
    (float : Text → Option (Dbl K)) : Stm32Bridge → List (List UInt8) → List (Published K)
  | _, [] => []
  | s, line :: lines =>
    let (published, s) := s.handle_line p float (decode_ascii line)
    published ++ publish_lines p float s lines

section Positions
variable {K : Type}

def newline (byte : UInt8) : Bool := byte == 0x0A

/-- Every byte with its position in the stream. -/
def stamp : Nat → List (Round UInt8 K) → List (Round (UInt8 × Nat) K)
  | _, [] => []
  | n, round :: rounds =>
    round.map (fun bytes => bytes.zipIdx n) :: stamp (n + (round.read.getD []).length) rounds

/-- The terminated lines of a stream. -/
abbrev lines_in (stream : List (UInt8 × Nat)) : List (List (UInt8 × Nat)) :=
  pieces (newline ∘ Prod.fst) [] stream

/-- Within the limit, besides its newline. -/
def short (line : List (UInt8 × Nat)) : Bool := line.length ≤ MAX_LINE_BYTES + 1

/-- What is passed on of a stream of bytes, every one with its position. -/
structure Framed (stream : List (UInt8 × Nat)) (passed : List (List (UInt8 × Nat))) : Prop where
  /-- terminated lines of the stream, in order and each once -/
  in_order : passed.Sublist (lines_in stream)
  complete : ∀ line ∈ lines_in stream, short line = true → line ∈ passed
  /-- the same for all cuts, up to longer lines -/
  same : passed.filter short = (lines_in stream).filter short
  no_tail : ∀ tail ∈ passed, ∀ line ∈ lines_in stream, tail <:+ line → tail = line

/-- Whenever a chunk ends a line, at most `MAX_LINE_BYTES` of the line came before it. -/
def WithinLimit (chunks : List (List UInt8)) : Prop := Fits newline MAX_LINE_BYTES chunks

theorem chunks_stamp (n : Nat) (rounds : List (Round UInt8 K)) :
    (chunks_of (stamp n rounds)).map (List.map Prod.fst) = chunks_of rounds := by
  induction rounds generalizing n with
  | nil => rfl
  | cons round rounds ih =>
    unfold chunks_of at ih ⊢
    rw [stamp]
    cases hread : round.read with
    | none =>
      rw [List.filterMap_cons_none hread, List.filterMap_cons_none (by simp [Round.map, hread])]
      exact ih _
    | some bytes =>
      rw [List.filterMap_cons_some hread,
        List.filterMap_cons_some (b := bytes.zipIdx n) (by simp [Round.map, hread]),
        List.map_cons, ih, List.zipIdx_map_fst]

theorem stream_stamp (n : Nat) (rounds : List (Round UInt8 K)) :
    stream_of (stamp n rounds) = (stream_of rounds).zipIdx n := by
  induction rounds generalizing n with
  | nil => rfl
  | cons round rounds ih =>
    unfold stream_of chunks_of at ih ⊢
    rw [stamp]
    cases hread : round.read with
    | none =>
      rw [List.filterMap_cons_none hread, List.filterMap_cons_none (by simp [Round.map, hread])]
      exact ih _
    | some bytes =>
      rw [List.filterMap_cons_some hread,
        List.filterMap_cons_some (b := bytes.zipIdx n) (by simp [Round.map, hread]),
        List.flatten_cons, List.flatten_cons, List.zipIdx_append, ih]
      rfl

theorem live_stamp {rounds : List (Round UInt8 K)} (h : ∀ round ∈ rounds, round.Live) (n : Nat) :
    ∀ round ∈ stamp n rounds, round.Live := by
  induction rounds generalizing n with
  | nil => exact fun _ hr => absurd hr List.not_mem_nil
  | cons round rounds ih =>
    intro r hr
    rcases List.mem_cons.mp hr with rfl | hr
    · obtain ⟨hrunning, hread, hstill, hhandled⟩ := h round List.mem_cons_self
      exact ⟨hrunning, by simpa [Round.map] using hread, hstill, hhandled⟩
    · exact ih (fun r hr => h r (List.mem_cons_of_mem _ hr)) _ r hr

theorem chunk_stamp {chunks : List (List (UInt8 × Nat))}
    (h : ∀ chunk ∈ chunks.map (List.map Prod.fst), Chunk newline chunk) :
    ∀ chunk ∈ chunks, Chunk (newline ∘ Prod.fst) chunk := by
  intro chunk hchunk x hx
  apply h _ (List.mem_map_of_mem hchunk) x.1
  rw [← List.map_dropLast]
  exact List.mem_map_of_mem hx

theorem framed_of_eq {stream : List (UInt8 × Nat)} (hnodup : stream.Nodup) :
    Framed stream (lines_in stream) := by
  refine ⟨List.Sublist.refl _, fun _ h _ => h, rfl, ?_⟩
  intro tail htail line hline hsuffix
  obtain ⟨byte, hbyte⟩ := List.exists_mem_of_ne_nil _ (ne_nil_of_mem_pieces [] htail)
  rw [← List.nil_append stream] at hnodup
  exact pieces_eq_of_mem hnodup htail hline hbyte (hsuffix.subset hbyte)

variable [Field K] [LinearOrder K]

/-- The lines that are passed on are framed if and only if no line has more than
`MAX_LINE_BYTES` bytes before the chunk that ends it. -/
theorem framed_iff_within_limit (stale_timeout start : K) (rounds : List (Round UInt8 K))
    (hlive : ∀ round ∈ rounds, round.Live) (hchunks : ∀ chunk ∈ chunks_of rounds, Chunk newline chunk) :
    (passed (newline ∘ Prod.fst) stale_timeout start (stamp 0 rounds)).map (List.map Prod.fst) =
      passed newline stale_timeout start rounds ∧
    (Framed ((stream_of rounds).zipIdx)
        (passed (newline ∘ Prod.fst) stale_timeout start (stamp 0 rounds)) ↔
      WithinLimit (chunks_of rounds)) := by
  have hstamped : passed (newline ∘ Prod.fst) stale_timeout start (stamp 0 rounds) =
      reassemble (newline ∘ Prod.fst) MAX_LINE_BYTES [] (chunks_of (stamp 0 rounds)) :=
    lines_read_lines (live_stamp hlive 0) _
  have hstream : (chunks_of (stamp 0 rounds)).flatten = (stream_of rounds).zipIdx :=
    stream_stamp 0 rounds
  have hnodup : ((stream_of rounds).zipIdx).Nodup := by
    apply List.Nodup.of_map Prod.snd
    rw [List.zipIdx_map_snd]
    exact List.nodup_range'
  have hfits : Fits (newline ∘ Prod.fst) MAX_LINE_BYTES (chunks_of (stamp 0 rounds)) ↔
      WithinLimit (chunks_of rounds) := by
    rw [← fits_map, chunks_stamp]
    rfl
  have hchunks' : ∀ chunk ∈ chunks_of (stamp 0 rounds), Chunk (newline ∘ Prod.fst) chunk := by
    apply chunk_stamp
    rwa [chunks_stamp]
  rw [hstamped, ← hfits, ← hstream]
  rw [← hstream] at hnodup
  refine ⟨?_, fun hframed => ?_, fun hwithin => ?_⟩
  · rw [reassemble_map, chunks_stamp]
    exact (lines_read_lines hlive { last_line := start }).symm
  · exact fits_of_reassemble_subset hchunks' hnodup hframed.in_order.subset
  · rw [reassemble_eq (fun _ hx => absurd hx List.not_mem_nil) hchunks' _ hwithin]
    · exact framed_of_eq hnodup
    · intro mid last post heq hmid hlast
      rw [List.length_nil, Nat.zero_add]
      exact hwithin [] mid last post heq hmid hlast

end Positions

section Examples

/-- Rounds that read these chunks while nothing fails. -/
def reads (chunks : List (List UInt8)) : List (Round UInt8 ℚ) :=
  chunks.map fun chunk => { read := some chunk, now := 0 }

theorem live_reads (chunks : List (List UInt8)) : ∀ round ∈ reads chunks, round.Live := by
  intro round hround
  obtain ⟨chunk, -, rfl⟩ := List.mem_map.mp hround
  exact ⟨rfl, rfl, rfl, rfl⟩

def text_bytes (text : String) : List UInt8 := text.toList.map fun ch => UInt8.ofNat ch.toNat

/-- A line in two chunks with a timeout between them, and a longer line in one chunk. -/
def chunked_lines : List (Round UInt8 ℚ) :=
  reads [text_bytes "D1:5", [], text_bytes ".0,D2:5.0\r\n", List.replicate 300 0x55 ++ [0x0A]]

theorem chunked_framed_iff :
    (passed (newline ∘ Prod.fst) 1 0 (stamp 0 chunked_lines)).map (List.map Prod.fst) =
      passed newline 1 0 chunked_lines ∧
    (Framed ((stream_of chunked_lines).zipIdx)
        (passed (newline ∘ Prod.fst) 1 0 (stamp 0 chunked_lines)) ↔
      WithinLimit (chunks_of chunked_lines)) :=
  framed_iff_within_limit 1 0 chunked_lines (live_reads _) (by decide +kernel)

/-- 257 bytes of noise without a newline, and then the rest of the noisy line. -/
def noise : List (Round UInt8 ℚ) :=
  reads [List.replicate 257 0x55, text_bytes "D1:5.0,D2:5.0\r\n"]

/-- The rest of the noisy line is passed on, and published as two distances. -/
theorem noise_published :
    (¬ ∀ rounds : List (Round UInt8 ℚ), (∀ round ∈ rounds, round.Live) →
      (∀ chunk ∈ chunks_of rounds, Chunk newline chunk) →
      Framed ((stream_of rounds).zipIdx)
        (passed (newline ∘ Prod.fst) 1 0 (stamp 0 rounds))) ∧
    publish_lines ⟨(0.02 : ℚ), 4⟩ read_decimal {} (passed newline 1 0 noise) =
      [.range .left (.fin 0.05), .range .right (.fin 0.05)] := by
  constructor
  · intro h
    have horder := (h noise (live_reads _) (by decide +kernel)).in_order
    revert horder
    decide +kernel
  · decide +kernel

end Examples

end IotRobot.Stm32
