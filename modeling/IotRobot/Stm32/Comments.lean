import IotRobot.Stm32.Protocol

/-!
# What the comment lines mean

`parse_sensor_status` and `is_banner` against the grammar of the lines: a line is parsed as
a fault or a recovery of a side exactly when it is written as one.
-/

namespace IotRobot.Stm32

open Lib Web

set_option autoImplicit false

theorem side_of_name (side : Side) : side_of (side_name side) = some side := by
  cases side <;> decide

theorem side_of_some {word : Text} {side : Side} (h : side_of word = some side) :
    word = side_name side := by
  have hfound := List.find?_some h
  exact (of_decide_eq_true hfound).symm

/-- The body of a report, as the parser sees it. -/
theorem body_of_reports {keyword detail line : Text} {side : Side}
    (h : Reports keyword side detail line)
    (hk : ∃ k ks, keyword = k :: ks ∧ is_space k = false) :
    (stripped line).head? = some '#' ∧
      ∃ c d, Spaces c ∧ Spaces d ∧ d ≠ [] ∧ stripped ((stripped line).drop 1) =
        keyword ++ (c ++ (side_name side ++ (d ++ stripped detail))) := by
  obtain ⟨a, b, c, d, ha, hb, hc, hd, hdne, ⟨ch, rest, rfl, hch⟩, rfl⟩ := h
  obtain ⟨k, ks, rfl, hk⟩ := hk
  have hdetail : stripped (ch :: rest) = ch :: rest.rdropWhile is_space := strip_cons hch
  -- only the end of the detail is stripped
  have hend : ∀ front rest : Text, (front ++ ch :: rest).rdropWhile is_space =
      front ++ ch :: rest.rdropWhile is_space := fun front _ => rdropWhile_append_cons front hch
  have hline : stripped (a ++ '#' :: (b ++ (k :: ks ++ (c ++ (side_name side ++
      (d ++ ch :: rest)))))) = '#' :: (b ++ (k :: ks ++ (c ++ (side_name side ++
      (d ++ ch :: rest.rdropWhile is_space))))) := by
    unfold stripped
    rw [strip_blank_append ha, strip_cons (by decide)]
    simp only [← List.append_assoc]
    rw [hend]
  refine ⟨by rw [hline]; rfl, c, d, hc, hd, hdne, ?_⟩
  rw [hline, hdetail, List.drop_succ_cons, List.drop_zero]
  unfold stripped
  rw [strip_blank_append hb, List.cons_append, strip_cons hk]
  simp only [← List.append_assoc]
  rw [hend, List.rdropWhile_idempotent]

/-- The words of a report's body. -/
theorem status_words {c d detail : Text} {side : Side} (faulty : Bool) (hc : Spaces c)
    (hd : Spaces d) (hdne : d ≠ []) (hdetail : ∃ ch rest, detail = ch :: rest ∧
      is_space ch = false) :
    parse_status_words faulty (c ++ (side_name side ++ (d ++ stripped detail))) =
      if faulty = false ∧ stripped detail ≠ RECOVERED then none
      else some ⟨side, faulty, stripped detail⟩ := by
  obtain ⟨ch, rest, rfl, hch⟩ := hdetail
  have hword : ∀ y ∈ side_name side, is_space y = false := by
    have hall : (side_name side).all (fun y => !is_space y) = true := by
      cases side <;> rfl
    exact fun y hy => Bool.not_eq_true' _ |>.mp (List.all_eq_true.mp hall y hy)
  have hne : side_name side ≠ [] := by
    cases side <;> decide
  have hstrip : stripped (stripped (ch :: rest)) = stripped (ch :: rest) := strip_strip _ _
  have hcore : stripped (ch :: rest) = ch :: rest.rdropWhile is_space := strip_cons hch
  unfold parse_status_words
  rw [hcore] at hstrip ⊢
  rw [split_first_words hc hword hne hd hdne hch]
  simp only [side_of_name, hstrip]

theorem status_of_warning {side : Side} {line : Text} (h : IsWarning side line) :
    ∃ detail, parse_sensor_status line = some ⟨side, true, detail⟩ := by
  obtain ⟨detail, hr⟩ := h
  obtain ⟨hhead, c, d, hc, hd, hdne, hbody⟩ := body_of_reports hr ⟨'w', _, rfl, by decide⟩
  obtain ⟨_, _, _, _, _, _, _, _, _, hdetail, _⟩ := hr
  refine ⟨stripped detail, ?_⟩
  unfold parse_sensor_status
  dsimp only
  rw [if_neg (not_not.mpr hhead), hbody]
  unfold parse_status_body
  rw [if_pos (List.isPrefixOf_iff_prefix.mpr (List.prefix_append _ _)), List.drop_left,
    status_words true hc hd hdne hdetail, if_neg (fun h => Bool.noConfusion h.1)]

theorem status_of_recovery {side : Side} {line : Text} (h : IsRecovery side line) :
    parse_sensor_status line = some ⟨side, false, RECOVERED⟩ := by
  obtain ⟨e, he, hr⟩ := h
  obtain ⟨hhead, c, d, hc, hd, hdne, hbody⟩ := body_of_reports hr ⟨'i', _, rfl, by decide⟩
  obtain ⟨_, _, _, _, _, _, _, _, _, hdetail, _⟩ := hr
  have hrecovered : stripped (RECOVERED ++ e) = RECOVERED := by
    unfold stripped strip
    obtain ⟨ch, rest, hch, hspace⟩ := hdetail
    rw [hch, dropWhile_cons_neg hspace, ← hch, rdropWhile_blank he]
    decide
  unfold parse_sensor_status
  dsimp only
  rw [if_neg (not_not.mpr hhead), hbody]
  have hother : ∀ text : Text,
      "warning:".toList.isPrefixOf ("info:".toList ++ text) = false := fun _ => rfl
  unfold parse_status_body
  rw [hother, if_neg Bool.false_ne_true]
  unfold parse_status_body
  rw [if_pos (List.isPrefixOf_iff_prefix.mpr (List.prefix_append _ _)), List.drop_left,
    status_words false hc hd hdne hdetail, if_neg (fun h => h.2 hrecovered), hrecovered]

/-- What is parsed as a status is written as a report. -/
theorem reports_of_status {line : Text} {status : SensorStatus}
    (h : parse_sensor_status line = some status) :
    (status.faulty = true ∧ IsWarning status.side line) ∨
      (status.faulty = false ∧ IsRecovery status.side line) := by
  unfold parse_sensor_status at h
  dsimp only at h
  by_cases hhead : (stripped line).head? ≠ some '#'
  · rw [if_pos hhead] at h
    cases h
  rw [if_neg hhead] at h
  -- the line is a comment; what stands behind the `#` is the body between two blanks
  obtain ⟨t, ht⟩ : ∃ t, stripped line = '#' :: t := by
    cases hline : stripped line with
    | nil =>
      rw [hline] at hhead
      exact absurd (fun h => by cases h) hhead
    | cons x t =>
      rw [hline] at hhead
      exact ⟨t, by rw [Option.some.inj (not_not.mp hhead)]⟩
  obtain ⟨a, e, ha, he, hline⟩ := strip_split is_space line
  obtain ⟨b, e', hb, he', hbody⟩ := strip_split is_space t
  rw [ht, List.drop_succ_cons, List.drop_zero] at h
  change strip is_space line = _ at ht
  have hsplit : ∀ keyword faulty, parse_status_words faulty ((stripped t).drop keyword.length) =
      some status → keyword.isPrefixOf (stripped t) = true →
      status.faulty = faulty ∧ (faulty = false → status.detail = RECOVERED) ∧
      ∃ c d ch rest, Spaces c ∧ Spaces d ∧ d ≠ [] ∧ is_space ch = false ∧
        status.detail = stripped (ch :: rest) ∧
        line = a ++ '#' :: (b ++ (keyword ++ (c ++ (side_name status.side ++
          (d ++ (ch :: rest ++ (e' ++ e))))))) := by
    intro keyword faulty hwords hpre
    obtain ⟨u, hu⟩ := List.isPrefixOf_iff_prefix.mp hpre
    rw [← hu, List.drop_left] at hwords
    unfold parse_status_words at hwords
    split at hwords
    · rename_i word rest hsp
      split at hwords
      · cases hwords
      · rename_i side hside
        dsimp only at hwords
        split at hwords
        · cases hwords
        · rename_i hkeep
          obtain rfl := Option.some.inj hwords
          obtain ⟨c, d, ch, m, hc, _, hd, hdne, hch, rfl, rfl⟩ := words_of_split_first hsp
          refine ⟨rfl, fun hf => ?_, c, d, ch, m, hc, hd, hdne, hch, rfl, ?_⟩
          · by_contra hne
            exact hkeep ⟨hf, hne⟩
          · rw [← side_of_some hside]
            rw [hline, ht, hbody]
            change a ++ ('#' :: (b ++ (stripped t ++ e')) ++ e) = _
            rw [← hu]
            simp
    · cases hwords
  unfold parse_status_body at h
  split at h
  · rename_i hpre
    obtain ⟨hf, _, c, d, ch, rest, hc, hd, hdne, hch, _, hl⟩ := hsplit _ _ h hpre
    exact .inl ⟨hf, _, a, b, c, d, ha, hb, hc, hd, hdne, ⟨ch, _, rfl, hch⟩, hl⟩
  · unfold parse_status_body at h
    split at h
    · rename_i hpre
      obtain ⟨hf, hdetail, c, d, ch, rest, hc, hd, hdne, hch, hstatus, hl⟩ := hsplit _ _ h hpre
      refine .inr ⟨hf, ?_⟩
      -- the detail is the recovery text up to spaces at its end
      obtain ⟨e'', he'', hend⟩ := rdropWhile_split is_space (ch :: rest)
      have hcore : ch :: rest = RECOVERED ++ e'' := by
        rw [← hdetail rfl, hstatus]
        unfold stripped strip
        rw [dropWhile_cons_neg hch, ← hend]
      refine ⟨e'' ++ (e' ++ e), he''.append (he'.append he), a, b, c, d, ha, hb, hc, hd, hdne,
        ⟨'s', _, rfl, by decide⟩, ?_⟩
      rw [hl, hcore, List.append_assoc]
    · cases h

/-- A line is parsed as a fault exactly when it is a warning line. -/
theorem fault_iff (line : Text) (side : Side) :
    (∃ detail, parse_sensor_status line = some ⟨side, true, detail⟩) ↔ IsWarning side line := by
  constructor
  · rintro ⟨detail, h⟩
    rcases reports_of_status h with ⟨_, hw⟩ | ⟨hf, _⟩
    · exact hw
    · cases hf
  · exact status_of_warning

/-- A line is parsed as a recovery exactly when it is a recovery line. -/
theorem recovery_iff (line : Text) (side : Side) :
    (∃ detail, parse_sensor_status line = some ⟨side, false, detail⟩) ↔
      IsRecovery side line := by
  constructor
  · rintro ⟨detail, h⟩
    rcases reports_of_status h with ⟨hf, _⟩ | ⟨_, hr⟩
    · cases hf
    · exact hr
  · exact fun h => ⟨_, status_of_recovery h⟩

theorem banner_stripped (rest : Text) :
    (BANNER_PREFIX ++ rest).rdropWhile is_space =
      BANNER_PREFIX ++ rest.rdropWhile is_space := by
  have hbanner : BANNER_PREFIX = "# iot-stm3".toList ++ ['2'] := by decide
  rw [hbanner, List.append_assoc, List.singleton_append, rdropWhile_append_cons _ (by decide),
    List.append_assoc, List.singleton_append]

theorem banner_iff (line : Text) : is_banner line = true ↔ IsBanner line := by
  unfold is_banner
  rw [List.isPrefixOf_iff_prefix]
  constructor
  · rintro ⟨rest, hrest⟩
    obtain ⟨a, e, ha, _, hline⟩ := strip_split is_space line
    refine ⟨a, rest ++ e, ha, ?_⟩
    change _ = strip is_space line at hrest
    rw [hline, ← hrest, List.append_assoc]
  · rintro ⟨a, rest, ha, rfl⟩
    refine ⟨rest.rdropWhile is_space, ?_⟩
    unfold stripped
    rw [strip_blank_append ha, ← banner_stripped]
    rfl

/-- The banner reports no sensor. -/
theorem banner_no_status {line : Text} (h : is_banner line = true) :
    parse_sensor_status line = none := by
  obtain ⟨rest, hrest⟩ := List.isPrefixOf_iff_prefix.mp h
  have hspace : Spaces [' '] := fun x hx => by
    rw [List.mem_singleton.mp hx]
    decide
  have hbody : stripped ((stripped line).drop 1) =
      'i' :: 'o' :: ("t-stm32".toList ++ rest).rdropWhile is_space := by
    rw [← hrest]
    change strip is_space ([' '] ++ 'i' :: 'o' :: ("t-stm32".toList ++ rest)) = _
    rw [strip_blank_append hspace, strip_cons (by decide), rdropWhile_cons (by decide)]
  unfold parse_sensor_status
  dsimp only
  rw [if_neg (by rw [← hrest]; exact fun hne => hne rfl), hbody]
  rfl

end IotRobot.Stm32
