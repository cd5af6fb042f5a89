import Mathlib.Data.List.Nodup
import Mathlib.Data.List.Pairwise

/-!
# A stream that arrives in chunks

The terminated pieces of a stream, and the pieces that a buffer of bounded length passes on
when the stream arrives in chunks that hold a terminator at most at their end. The two are
the same unless the buffer is dropped in the middle of a piece that is completed later; then
the rest of that piece is passed on as if it were a piece of its own.
-/

namespace IotRobot.Lib

set_option autoImplicit false

section Framing
variable {α : Type*} (stop : α → Bool)

/-- The last element is a terminator. -/
def terminated (l : List α) : Bool := l.getLast?.any stop

/-- No terminator but at the end. -/
def Chunk (l : List α) : Prop := ∀ x ∈ l.dropLast, stop x = false

instance (l : List α) : Decidable (Chunk stop l) :=
  inferInstanceAs (Decidable (∀ x ∈ l.dropLast, stop x = false))

/-- The terminated pieces of a stream behind what is `open_` already. -/
def pieces (open_ : List α) : List α → List (List α)
  | [] => []
  | x :: l => if stop x then (open_ ++ [x]) :: pieces [] l else pieces (open_ ++ [x]) l

variable {stop} {open_ body l m rest : List α}

theorem terminated_snoc (body : List α) (x : α) : terminated stop (body ++ [x]) = stop x := by
  unfold terminated
  rw [List.getLast?_append_cons]
  rfl

/-- A chunk is free of terminators, or its last element is one and there is no other. -/
theorem Chunk.cases (h : Chunk stop l) :
    (terminated stop l = false ∧ ∀ x ∈ l, stop x = false) ∨
    (terminated stop l = true ∧ ∃ body x, l = body ++ [x] ∧ stop x = true ∧
      ∀ y ∈ body, stop y = false) := by
  rcases List.eq_nil_or_concat l with rfl | ⟨body, x, rfl⟩
  · exact .inl ⟨rfl, fun _ hx => absurd hx List.not_mem_nil⟩
  rw [List.concat_eq_append] at h ⊢
  have hbody : ∀ y ∈ body, stop y = false := fun y hy => h y (by rwa [List.dropLast_concat])
  rw [terminated_snoc]
  cases hx : stop x with
  | true => exact .inr ⟨rfl, body, x, rfl, hx, hbody⟩
  | false =>
    refine .inl ⟨rfl, fun y hy => ?_⟩
    rcases List.mem_append.mp hy with hy | hy
    · exact hbody y hy
    · rw [List.mem_singleton.mp hy]
      exact hx

/-- What holds no terminator stays open. -/
theorem pieces_open (hbody : ∀ x ∈ body, stop x = false) (open_ rest : List α) :
    pieces stop open_ (body ++ rest) = pieces stop (open_ ++ body) rest := by
  induction body generalizing open_ with
  | nil => rw [List.nil_append, List.append_nil]
  | cons x body ih =>
    rw [List.cons_append, pieces, hbody x List.mem_cons_self, if_neg Bool.false_ne_true,
      ih (fun y hy => hbody y (List.mem_cons_of_mem _ hy)), List.append_assoc,
      List.singleton_append]

/-- A chunk with a terminator completes the piece. -/
theorem pieces_close (h : Chunk stop l) (hend : terminated stop l = true) (open_ rest : List α) :
    pieces stop open_ (l ++ rest) = (open_ ++ l) :: pieces stop [] rest := by
  rcases h.cases with ⟨hopen, -⟩ | ⟨-, body, x, rfl, hx, hbody⟩
  · rw [hopen] at hend
    cases hend
  rw [List.append_assoc, pieces_open hbody, List.singleton_append, pieces, if_pos hx,
    List.append_assoc]

theorem pieces_nil_of_free (h : ∀ x ∈ l, stop x = false) (open_ : List α) :
    pieces stop open_ l = [] := by
  have hopen := pieces_open h open_ []
  rwa [List.append_nil] at hopen

theorem ne_nil_of_mem_pieces (open_ : List α) {piece : List α} (h : piece ∈ pieces stop open_ l) :
    piece ≠ [] := by
  induction l generalizing open_ with
  | nil => cases h
  | cons x l ih =>
    rw [pieces] at h
    split at h
    · rcases List.mem_cons.mp h with rfl | h
      · exact List.append_ne_nil_of_right_ne_nil _ (List.cons_ne_nil _ _)
      · exact ih [] h
    · exact ih _ h

/-- The pieces are cut from the front of the stream. -/
theorem pieces_flatten (open_ l : List α) : (pieces stop open_ l).flatten <+: open_ ++ l := by
  induction l generalizing open_ with
  | nil => exact List.nil_prefix
  | cons x l ih =>
    rw [pieces, List.append_cons open_ x l]
    split
    · obtain ⟨tail, htail⟩ := ih []
      exact ⟨tail, by rw [List.flatten_cons, List.append_assoc, htail, List.nil_append]⟩
    · exact ih _

/-- The pieces of a stream without repetition have nothing in common. -/
theorem pieces_eq_of_mem (hnodup : (open_ ++ l).Nodup) {piece piece' : List α}
    (h : piece ∈ pieces stop open_ l) (h' : piece' ∈ pieces stop open_ l) {x : α}
    (hx : x ∈ piece) (hx' : x ∈ piece') : piece = piece' := by
  have hflat : (pieces stop open_ l).flatten.Nodup := (pieces_flatten open_ l).sublist.nodup hnodup
  have hdisjoint := (List.nodup_flatten.mp hflat).2
  have : Std.Symm (List.Disjoint (α := α)) := ⟨fun _ _ hd => List.disjoint_symm hd⟩
  by_contra hne
  exact hdisjoint.forall h h' hne hx hx'

/-- The pieces that are passed on, where a buffer that is still open is dropped once it is
longer than the limit. -/
def reassemble (stop : α → Bool) (limit : Nat) (pending : List α) : List (List α) → List (List α)
  | [] => []
  | chunk :: chunks =>
    let pending := pending ++ chunk
    if terminated stop pending then pending :: reassemble stop limit [] chunks
    else reassemble stop limit (if limit < pending.length then [] else pending) chunks

/-- Whenever a chunk completes a piece, what came before it was within the limit. -/
def Fits (stop : α → Bool) (limit : Nat) (chunks : List (List α)) : Prop :=
  ∀ pre mid last post, chunks = pre ++ (mid ++ last :: post) →
    (∀ chunk ∈ mid, ∀ x ∈ chunk, stop x = false) → terminated stop last = true →
    mid.flatten.length ≤ limit

variable {limit : Nat} {pending chunk : List α} {chunks mid post : List (List α)}

theorem terminated_append (hpending : ∀ x ∈ pending, stop x = false) (chunk : List α) :
    terminated stop (pending ++ chunk) = terminated stop chunk := by
  rcases List.eq_nil_or_concat chunk with rfl | ⟨body, x, rfl⟩
  · rw [List.append_nil]
    rcases List.eq_nil_or_concat pending with rfl | ⟨body, x, rfl⟩
    · rfl
    · rw [List.concat_eq_append] at hpending ⊢
      rw [terminated_snoc, hpending x (by simp)]
      rfl
  · rw [List.concat_eq_append, ← List.append_assoc, terminated_snoc, terminated_snoc]

theorem free_append (hpending : ∀ x ∈ pending, stop x = false) (hchunk : ∀ x ∈ chunk, stop x = false) :
    ∀ x ∈ pending ++ chunk, stop x = false := by
  intro x hx
  rcases List.mem_append.mp hx with h | h
  · exact hpending x h
  · exact hchunk x h

theorem reassemble_close (hpending : ∀ x ∈ pending, stop x = false)
    (hend : terminated stop chunk = true) (chunks : List (List α)) :
    reassemble stop limit pending (chunk :: chunks) =
      (pending ++ chunk) :: reassemble stop limit [] chunks := by
  rw [reassemble, terminated_append hpending]
  exact if_pos hend

theorem reassemble_open (hpending : ∀ x ∈ pending, stop x = false)
    (hopen : terminated stop chunk = false) (chunks : List (List α)) :
    reassemble stop limit pending (chunk :: chunks) = reassemble stop limit
      (if limit < (pending ++ chunk).length then [] else pending ++ chunk) chunks := by
  rw [reassemble, terminated_append hpending]
  exact if_neg (ne_true_of_eq_false hopen)

/-- What is kept of a buffer that is still open. -/
theorem kept_suffix (limit : Nat) (l : List α) :
    (if limit < l.length then [] else l) <:+ l := by
  split
  · exact List.nil_suffix
  · exact List.suffix_refl l

theorem free_of_suffix (h : pending <:+ open_) (hopen : ∀ x ∈ open_, stop x = false) :
    ∀ x ∈ pending, stop x = false := fun x hx => hopen x (h.subset hx)

theorem reassemble_free (hpending : ∀ x ∈ pending, stop x = false)
    (h : ∀ chunk ∈ chunks, ∀ x ∈ chunk, stop x = false) :
    reassemble stop limit pending chunks = [] := by
  induction chunks generalizing pending with
  | nil => rfl
  | cons chunk chunks ih =>
    have hchunk := h chunk List.mem_cons_self
    have hopen : terminated stop chunk = false := by
      have happend := terminated_append hchunk []
      rwa [List.append_nil] at happend
    rw [reassemble_open hpending hopen]
    apply ih
    · exact free_of_suffix (kept_suffix _ _) (free_append hpending hchunk)
    · exact fun c hc => h c (List.mem_cons_of_mem _ hc)

/-- Either no chunk is terminated, or there is a first one. -/
theorem first_terminated (h : ∀ chunk ∈ chunks, Chunk stop chunk) :
    (∀ chunk ∈ chunks, ∀ x ∈ chunk, stop x = false) ∨
    ∃ mid last post, chunks = mid ++ last :: post ∧
      (∀ chunk ∈ mid, ∀ x ∈ chunk, stop x = false) ∧ terminated stop last = true := by
  induction chunks with
  | nil => exact .inl fun _ hc => absurd hc List.not_mem_nil
  | cons chunk chunks ih =>
    rcases (h chunk List.mem_cons_self).cases with ⟨-, hfree⟩ | ⟨hend, -⟩
    · rcases ih fun c hc => h c (List.mem_cons_of_mem _ hc) with
        hall | ⟨mid, last, post, rfl, hmid, hlast⟩
      · refine .inl fun c hc => ?_
        rcases List.mem_cons.mp hc with rfl | hc
        · exact hfree
        · exact hall c hc
      · refine .inr ⟨chunk :: mid, last, post, rfl, fun c hc => ?_, hlast⟩
        rcases List.mem_cons.mp hc with rfl | hc
        · exact hfree
        · exact hmid c hc
    · exact .inr ⟨[], chunk, chunks, rfl, fun _ hc => absurd hc List.not_mem_nil, hend⟩

/-- Within the limit the terminated pieces are passed on, no more and no less. -/
theorem reassemble_eq (hopen : ∀ x ∈ open_, stop x = false)
    (hchunks : ∀ chunk ∈ chunks, Chunk stop chunk)
    (hfirst : ∀ mid last post, chunks = mid ++ last :: post →
      (∀ chunk ∈ mid, ∀ x ∈ chunk, stop x = false) → terminated stop last = true →
      open_.length + mid.flatten.length ≤ limit)
    (hfits : Fits stop limit chunks) :
    reassemble stop limit open_ chunks = pieces stop open_ chunks.flatten := by
  induction chunks generalizing open_ with
  | nil => rfl
  | cons chunk chunks ih =>
    have hrest : ∀ c ∈ chunks, Chunk stop c := fun c hc => hchunks c (List.mem_cons_of_mem _ hc)
    have hfits' : Fits stop limit chunks := fun pre mid last post heq =>
      hfits (chunk :: pre) mid last post (by rw [heq, List.cons_append])
    rw [List.flatten_cons]
    rcases (hchunks chunk List.mem_cons_self).cases with ⟨hterm, hfree⟩ | ⟨hterm, -⟩
    · rw [reassemble_open hopen hterm, pieces_open hfree]
      by_cases hlong : limit < (open_ ++ chunk).length
      · -- the buffer is dropped: no later chunk may complete the piece
        rw [if_pos hlong]
        rcases first_terminated hrest with hnone | ⟨mid, last, post, rfl, hmid, hlast⟩
        · rw [reassemble_free (fun _ hx => absurd hx List.not_mem_nil) hnone,
            pieces_nil_of_free]
          intro x hx
          obtain ⟨c, hc, hx⟩ := List.mem_flatten.mp hx
          exact hnone c hc x hx
        · have hwithin := hfirst (chunk :: mid) last post rfl (fun c hc => ?_) hlast
          · rw [List.flatten_cons, List.length_append] at hwithin
            rw [List.length_append] at hlong
            omega
          · rcases List.mem_cons.mp hc with rfl | hc
            · exact hfree
            · exact hmid c hc
      · rw [if_neg hlong]
        apply ih (free_append hopen hfree) hrest _ hfits'
        intro mid last post heq hmid hlast
        have hwithin := hfirst (chunk :: mid) last post (by rw [heq, List.cons_append])
          (fun c hc => ?_) hlast
        · rw [List.flatten_cons, List.length_append] at hwithin
          rw [List.length_append]
          omega
        · rcases List.mem_cons.mp hc with rfl | hc
          · exact hfree
          · exact hmid c hc
    · rw [reassemble_close hopen hterm, pieces_close (hchunks chunk List.mem_cons_self) hterm,
        ih (fun _ hx => absurd hx List.not_mem_nil) hrest _ hfits']
      intro mid last post heq hmid hlast
      rw [List.length_nil, Nat.zero_add]
      exact hfits' [] mid last post heq hmid hlast

/-- What is passed on when the open piece is completed, and that something of it is missing if
it was over the limit. -/
theorem reassemble_tail (limit : Nat) {last : List α} (hpending : ∀ x ∈ pending, stop x = false)
    (hmid : ∀ chunk ∈ mid, ∀ x ∈ chunk, stop x = false) (hlast : terminated stop last = true)
    (post : List (List α)) :
    ∃ kept, kept <:+ pending ++ mid.flatten ∧
      reassemble stop limit pending (mid ++ last :: post) =
        (kept ++ last) :: reassemble stop limit [] post ∧
      (mid ≠ [] → limit < (pending ++ mid.flatten).length →
        kept.length < (pending ++ mid.flatten).length) := by
  induction mid generalizing pending with
  | nil =>
    refine ⟨pending, ?_, reassemble_close hpending hlast post, fun hne => absurd rfl hne⟩
    simp only [List.flatten_nil, List.append_nil, List.suffix_refl]
  | cons chunk mid ih =>
    have hfree := hmid chunk List.mem_cons_self
    have hopen : terminated stop chunk = false := by
      have happend := terminated_append hfree []
      rwa [List.append_nil] at happend
    have hrest : ∀ c ∈ mid, ∀ x ∈ c, stop x = false :=
      fun c hc => hmid c (List.mem_cons_of_mem _ hc)
    rw [List.cons_append, reassemble_open hpending hopen, List.flatten_cons, ← List.append_assoc]
    by_cases hlong : limit < (pending ++ chunk).length
    · rw [if_pos hlong]
      obtain ⟨kept, hsuffix, heq, -⟩ := ih (fun _ hx => absurd hx List.not_mem_nil) hrest
      refine ⟨kept, hsuffix.trans (List.suffix_append _ _), heq, fun _ _ => ?_⟩
      have hlen := hsuffix.length_le
      rw [List.nil_append] at hlen
      rw [List.length_append]
      omega
    · rw [if_neg hlong]
      obtain ⟨kept, hsuffix, heq, hshort⟩ := ih (free_append hpending hfree) hrest
      refine ⟨kept, hsuffix, heq, fun _ hover => hshort ?_ hover⟩
      rintro rfl
      rw [List.flatten_nil, List.append_nil] at hover
      exact hlong hover

/-- The buffer and the open piece after the first chunks. -/
theorem reassemble_append (limit : Nat) (hsuffix : pending <:+ open_) (hopen : ∀ x ∈ open_, stop x = false)
    {pre : List (List α)} (hpre : ∀ chunk ∈ pre, Chunk stop chunk) (rest : List (List α)) :
    ∃ pending' open', pending' <:+ open' ∧ (∀ x ∈ open', stop x = false) ∧
      reassemble stop limit pending (pre ++ rest) =
        reassemble stop limit pending pre ++ reassemble stop limit pending' rest ∧
      pieces stop open_ (pre ++ rest).flatten =
        pieces stop open_ pre.flatten ++ pieces stop open' rest.flatten := by
  induction pre generalizing pending open_ with
  | nil => exact ⟨pending, open_, hsuffix, hopen, rfl, rfl⟩
  | cons chunk pre ih =>
    have hchunk := hpre chunk List.mem_cons_self
    have hrest : ∀ c ∈ pre, Chunk stop c := fun c hc => hpre c (List.mem_cons_of_mem _ hc)
    have hpending := free_of_suffix hsuffix hopen
    rw [List.cons_append, List.flatten_cons, List.flatten_cons]
    rcases hchunk.cases with ⟨hterm, hfree⟩ | ⟨hterm, -⟩
    · rw [reassemble_open hpending hterm, reassemble_open hpending hterm, pieces_open hfree,
        pieces_open hfree]
      obtain ⟨left, hleft⟩ := hsuffix
      refine ih ((kept_suffix _ _).trans ⟨left, ?_⟩) (free_append hopen hfree) hrest
      rw [← List.append_assoc, hleft]
    · rw [reassemble_close hpending hterm, reassemble_close hpending hterm,
        pieces_close hchunk hterm, pieces_close hchunk hterm]
      obtain ⟨pending', open', hsuffix', hopen', hpassed, hpieces⟩ :=
        ih (List.suffix_refl []) (fun _ hx => absurd hx List.not_mem_nil) hrest
      exact ⟨pending', open', hsuffix', hopen', by rw [hpassed, List.cons_append],
        by rw [hpieces, List.cons_append]⟩

/-- Over the limit, a tail of a piece is passed on that is no piece of the stream. -/
theorem fits_of_reassemble_subset (hchunks : ∀ chunk ∈ chunks, Chunk stop chunk)
    (hnodup : chunks.flatten.Nodup)
    (h : reassemble stop limit [] chunks ⊆ pieces stop [] chunks.flatten) :
    Fits stop limit chunks := by
  rintro pre mid last post rfl hmid hlast
  by_contra hover
  have hchunk : Chunk stop last := hchunks last (by simp)
  have hpre : ∀ c ∈ pre, Chunk stop c := fun c hc => hchunks c (List.mem_append_left _ hc)
  obtain ⟨pending, open_, hsuffix, hopen, hpassed, hpieces⟩ := reassemble_append limit
    (List.suffix_refl []) (fun _ hx => absurd hx List.not_mem_nil) hpre (mid ++ last :: post)
  obtain ⟨kept, hkept, htail, hshort⟩ :=
    reassemble_tail limit (free_of_suffix hsuffix hopen) hmid hlast post
  have hwhole : open_ ++ mid.flatten ++ last ∈
      pieces stop [] (pre ++ (mid ++ last :: post)).flatten := by
    rw [hpieces, List.flatten_append, List.flatten_cons, pieces_open, pieces_close hchunk hlast]
    · exact List.mem_append_right _ List.mem_cons_self
    · intro x hx
      obtain ⟨c, hc, hx⟩ := List.mem_flatten.mp hx
      exact hmid c hc x hx
  have hpiece : kept ++ last ∈ pieces stop [] (pre ++ (mid ++ last :: post)).flatten := by
    apply h
    rw [hpassed, htail]
    exact List.mem_append_right _ List.mem_cons_self
  -- both end with the terminator of the last chunk
  obtain ⟨hfalse, -⟩ | ⟨-, body, x, rfl, -, -⟩ := hchunk.cases
  · rw [hlast] at hfalse
    cases hfalse
  have heq := pieces_eq_of_mem hnodup hpiece hwhole (x := x) (by simp) (by simp)
  have hlen := congrArg List.length heq
  have hne : mid ≠ [] := by
    rintro rfl
    exact hover (Nat.zero_le _)
  have hlt := hshort hne (by rw [List.length_append]; omega)
  have hle := hsuffix.length_le
  simp only [List.length_append] at hlen hlt
  omega

theorem terminated_map {β : Type*} (f : β → α) (l : List β) :
    terminated stop (l.map f) = terminated (stop ∘ f) l := by
  unfold terminated
  rw [List.getLast?_map, Option.any_map]
  rfl

theorem fits_map {β : Type*} (f : β → α) (chunks : List (List β)) :
    Fits stop limit (chunks.map (List.map f)) ↔ Fits (stop ∘ f) limit chunks := by
  have hlength (mid : List (List β)) : (mid.map (List.map f)).flatten.length = mid.flatten.length := by
    rw [← List.map_flatten, List.length_map]
  constructor
  · rintro h pre mid last post rfl hmid hlast
    rw [← hlength]
    apply h (pre.map (List.map f)) (mid.map (List.map f)) (last.map f) (post.map (List.map f))
    · rw [List.map_append, List.map_append, List.map_cons]
    · intro chunk hchunk x hx
      obtain ⟨c, hc, rfl⟩ := List.mem_map.mp hchunk
      obtain ⟨y, hy, rfl⟩ := List.mem_map.mp hx
      exact hmid c hc y hy
    · rw [terminated_map]
      exact hlast
  · intro h pre mid last post hsplit hmid hlast
    obtain ⟨pre', rest, rfl, rfl, hrest⟩ := List.map_eq_append_iff.mp hsplit
    obtain ⟨mid', rest', rfl, rfl, hrest'⟩ := List.map_eq_append_iff.mp hrest
    obtain ⟨last', post', rfl, rfl, rfl⟩ := List.map_eq_cons_iff.mp hrest'
    rw [hlength]
    refine h pre' mid' last' post' rfl (fun c hc x hx => ?_) ?_
    · exact hmid _ (List.mem_map_of_mem hc) _ (List.mem_map_of_mem hx)
    · rw [← terminated_map]
      exact hlast

/-- The pieces do not depend on what the elements carry besides. -/
theorem reassemble_map {β : Type*} (f : β → α) (limit : Nat) (pending : List β)
    (chunks : List (List β)) :
    (reassemble (stop ∘ f) limit pending chunks).map (List.map f) =
      reassemble stop limit (pending.map f) (chunks.map (List.map f)) := by
  induction chunks generalizing pending with
  | nil => rfl
  | cons chunk chunks ih =>
    rw [reassemble, List.map_cons, reassemble, ← List.map_append, terminated_map, List.length_map]
    split
    · rw [List.map_cons, ih, List.map_nil]
    · rw [ih]
      split <;> rfl

end Framing

end IotRobot.Lib
