import IotRobot.Tool.Watch

/-!
# A runaway motor is released without braking

From a frame on that shows the motor running away, the motor has to be left
without speed commands and released. What a move sends after the frame it ends
with depends on the check that objected to it: a fault and too much current ask
for a brake, a speed that does not follow for the release alone.
-/

namespace IotRobot.Tool

open Lib Prog Can

set_option autoImplicit false

section Released
variable {K : Type} [Field K] [LinearOrder K]

/-- A speed command to the motor. -/
def SpeedFrame (can_id : Nat) (frame : CanFrame) : Prop :=
  frame.id = MODE_SPEED <<< 8 ||| can_id

/-- Once a frame shows the motor running away, it gets no speed command any more and the
move ends with its release. -/
def Released (args : Args) (can_id : Nat) (trace : List (Event K)) : Prop :=
  ∀ before frame after, trace = before ++ .received frame :: after →
    Shows can_id (RunsAway args) before frame →
    (∀ sent, .sent sent ∈ after → ¬ SpeedFrame can_id sent) ∧
      ∃ rest, after = rest ++ [.sent (encode_release can_id)]

variable {args : Args} {can_id : Nat} {t : List (Event K)}

theorem Calm.released (h : Calm args can_id t) : Released args can_id t :=
  fun before frame after ht hshows => absurd hshows (h before _ after ht frame rfl)

/-- After a calm trace, only the frame received next can be one of a runaway motor as long
as the program just sends. -/
theorem runaway_is_last (h : Calm args can_id t) {frame frame' : CanFrame} {frames : List CanFrame}
    {before after : List (Event K)}
    (ht : t ++ .received frame :: frames.map .sent = before ++ .received frame' :: after)
    (hshows : Shows can_id (RunsAway args) before frame') :
    before = t ∧ frame' = frame ∧ after = frames.map .sent := by
  rcases split_append ht with ⟨rest, ht⟩ | ⟨more, rfl, hmore⟩
  · exact absurd hshows (h before _ rest ht frame' rfl)
  · cases more with
    | nil =>
      obtain ⟨hframe, hafter⟩ := List.cons.inj hmore
      injection hframe with hframe
      exact ⟨List.append_nil t, hframe.symm, hafter.symm⟩
    | cons e more =>
      obtain ⟨-, hsends⟩ := List.cons.inj hmore
      have hmem : .received frame' ∈ frames.map (Event.sent (K := K)) := by rw [hsends]; simp
      obtain ⟨sent, -, hsent⟩ := List.mem_map.mp hmem
      cases hsent

end Released

section Final
variable {K : Type} [Field K] [LinearOrder K]

/-- The trace of a move, as far as the run is followed. -/
inductive Final (args : Args) (can_id : Nat) (disturbed : Status K → Prop)
    (trace : List (Event K)) : Prop
  | calm : Calm args can_id trace → Final args can_id disturbed trace
  | braked (t : List (Event K)) (frame : CanFrame) (first : List CanFrame) (k : Nat) :
      trace = t ++ .received frame :: first.map .sent → Calm args can_id t →
      Shows can_id (fun status _ => disturbed status) t frame →
      first <+: stop_sequence [can_id] k → first ≠ [] → Final args can_id disturbed trace
  | released (t : List (Event K)) (frame : CanFrame) :
      trace = t ++ .received frame :: [encode_release can_id].map .sent → Calm args can_id t →
      Shows can_id (fun status speed => ¬ disturbed status ∧ RunsAway args status speed) t frame →
      Final args can_id disturbed trace

variable {args : Args} {can_id : Nat} {disturbed : Status K → Prop} [IsStrictOrderedRing K]
  [FloorRing K] {bus : Bus K}

theorem stop_sequence_ne_nil (can_id k : Nat) : stop_sequence [can_id] k ≠ [] := by
  simp [stop_sequence]

theorem finish_move_final :
    Triple (ended args can_id disturbed) (finish_move bus can_id)
      fun _ s => Final args can_id disturbed s.trace := by
  intro s hs
  show Final args can_id disturbed (end_move bus can_id s.release_only s).2.trace
  have hstop : s.release_only = false → ∃ first k, first <+: stop_sequence [can_id] k ∧
      first ≠ [] ∧ (end_move bus can_id s.release_only s).2.trace = s.trace ++ first.map .sent := by
    intro hbrakes
    obtain ⟨k, hsends⟩ : ∃ k, Sends bus s.trace (stop_sequence [can_id] k)
        (stop_motors bus [can_id] default_brake_time default_period s).1
        (stop_motors bus [can_id] default_brake_time default_period s).2 :=
      stop_motors_sends [can_id] (by simp) default_brake_time default_period s rfl
    obtain ⟨first, hfirst, hne, htrace⟩ := hsends.some (stop_sequence_ne_nil can_id k)
    refine ⟨first, k, hfirst, hne, ?_⟩
    rw [hbrakes]
    exact htrace
  cases hs with
  | calm hcalm hbrakes =>
    obtain ⟨first, k, -, -, htrace⟩ := hstop hbrakes
    rw [htrace]
    exact .calm (hcalm.sends first)
  | objected hobjected =>
    cases hobjected with
    | brake t frame ht hcalm hshows hrelease =>
      obtain ⟨first, k, hfirst, hne, htrace⟩ := hstop (Bool.eq_false_iff.mpr hrelease)
      refine .braked t frame first k ?_ hcalm hshows hfirst hne
      rw [htrace, ht, List.append_assoc]
      rfl
    | release t frame ht hcalm hshows hrelease =>
      refine .released t frame ?_ hcalm hshows
      rw [hrelease]
      show s.trace ++ [.sent (encode_release can_id)] = _
      rw [ht, List.append_assoc]
      rfl

/-- A move whose body keeps watch ends in one of the ways of `Final`. -/
theorem move_final {C : Dbl K → Prop} {α : Type} {p : Tool K α} {h : Exception K → Tool K α}
    (hp : Keeps (Going args can_id C) (Stopped args can_id disturbed) p)
    (hh : ∀ e, Triple (Stopped args can_id disturbed e) (h e) (Handled args can_id disturbed)) :
    Triple (Going args can_id C) (ensuring (handle p h) (finish_move bus can_id))
      fun _ s => Final args can_id disturbed s.trace := by
  -- a handler never goes on for ever, so a run that does is still in the body
  let R : Outcome (Exception K) α → Session K → Prop := fun o s =>
    ended args can_id disturbed s ∧ (o = .running → Calm args can_id s.trace)
  have hhandle : Triple (Going args can_id C) (handle p h) R := by
    refine handle_rule hp ?_ (fun e s hs => ?_) ?_
    · intro a s hkept
      cases hkept with
      | returned _ _ hgoing => exact ⟨hgoing.ended, by simp⟩
    · have hstopped : Stopped args can_id disturbed e s := by
        cases hs with
        | raised _ _ hs => exact hs
      obtain ⟨hended, hends⟩ := (hh e s hstopped).stands
      exact ⟨hended, fun hrun => absurd hrun hends⟩
    · intro s hkept
      cases hkept with
      | running _ hgoing => exact ⟨hgoing.ended, fun _ => hgoing.calm⟩
  have hfinish : ∀ q : Tool K α, (∀ s, (q s).2 = s) → Triple (ended args can_id disturbed)
      (finish_move bus can_id >>= fun _ => q) fun _ s => Final args can_id disturbed s.trace := by
    intro q hq
    refine bind_rule finish_move_final (fun _ s hs => ?_) ⟨fun _ _ hs => hs, fun _ hs => hs⟩
    rw [hq s]
    exact hs
  refine ensuring_rule hhandle (fun a => ?_) (fun e => ?_) fun s hs => .calm (hs.2 rfl)
  · exact (hfinish (pure a) fun _ => rfl).weaken (fun s hs => hs.1) fun _ _ hs => hs
  · exact (hfinish (raise e) fun _ => rfl).weaken (fun s hs => hs.1) fun _ _ hs => hs

/-- No frame that shows the motor running away gives another reason to stop. -/
def Undisturbed (args : Args) (can_id : Nat) (disturbed : Status K → Prop) :
    List (Event K) → Prop :=
  Throughout fun before e => ∀ frame, e = .received frame →
    Shows can_id (RunsAway args) before frame →
      ¬ Shows can_id (fun status _ => disturbed status) before frame

theorem zero_speed_first {first : List CanFrame} {k : Nat}
    (h : first <+: stop_sequence [can_id] k) (hne : first ≠ []) : zero_speed can_id ∈ first := by
  have hhead : stop_sequence [can_id] k =
      zero_speed can_id :: (brake_rounds [can_id] k ++ [encode_release can_id]) := by
    simp [stop_sequence, brake_rounds, List.replicate_succ]
  obtain ⟨frame, rest, rfl⟩ := List.exists_cons_of_ne_nil hne
  rw [hhead, List.cons_prefix_cons] at h
  rw [h.1]
  exact List.mem_cons_self

theorem release_not_speed (h : can_id < 256) : ¬ SpeedFrame can_id (encode_release can_id) := by
  intro hframe
  have hrelease : MODE_CURRENT <<< 8 ||| can_id = 256 + can_id :=
    (Nat.shiftLeft_add_eq_or_of_lt (i := 8) h MODE_CURRENT).symm
  have hspeed : MODE_SPEED <<< 8 ||| can_id = 768 + can_id :=
    (Nat.shiftLeft_add_eq_or_of_lt (i := 8) h MODE_SPEED).symm
  have heq : MODE_CURRENT <<< 8 ||| can_id = MODE_SPEED <<< 8 ||| can_id := hframe
  omega

omit [IsStrictOrderedRing K] [FloorRing K] in
/-- A move treats a runaway motor as it should if and only if no other check objects to
the frame that shows it. -/
theorem Final.released_iff {trace : List (Event K)} (h : Final args can_id disturbed trace) :
    Released args can_id trace ↔ Undisturbed args can_id disturbed trace := by
  cases h with
  | calm hcalm =>
    refine iff_of_true hcalm.released fun before e after htrace frame he hshows => ?_
    exact absurd hshows (hcalm before e after htrace frame he)
  | braked t frame first k htrace hcalm hshows hfirst hne =>
    by_cases haway : Shows can_id (RunsAway args) t frame
    · -- the frame shows both, and the brake starts with a zero speed
      refine iff_of_false (fun hreleased => ?_) fun hund => ?_
      · obtain ⟨hspeed, -⟩ := hreleased t frame _ htrace haway
        exact hspeed (zero_speed can_id)
          (List.mem_map.mpr ⟨_, zero_speed_first hfirst hne, rfl⟩) rfl
      · exact hund t _ _ htrace frame rfl haway hshows
    · subst htrace
      refine iff_of_true (fun before frame' after hsplit haway' => ?_)
        fun before e after hsplit frame' he haway' => ?_
      · obtain ⟨rfl, rfl, -⟩ := runaway_is_last hcalm hsplit haway'
        exact absurd haway' haway
      · subst he
        obtain ⟨rfl, rfl, -⟩ := runaway_is_last hcalm hsplit haway'
        exact absurd haway' haway
  | released t frame htrace hcalm hshows =>
    subst htrace
    refine iff_of_true (fun before frame' after hsplit haway => ?_)
      fun before e after hsplit frame' he haway hdisturbed => ?_
    · obtain ⟨rfl, rfl, rfl⟩ := runaway_is_last hcalm hsplit haway
      obtain ⟨status, hstatus, hid, -⟩ := hshows
      refine ⟨fun sent hsent => ?_, [], rfl⟩
      obtain rfl : sent = encode_release can_id := by simpa using hsent
      exact release_not_speed (hid ▸ decode_status_can_id hstatus)
    · subst he
      obtain ⟨rfl, rfl, -⟩ := runaway_is_last hcalm hsplit haway
      obtain ⟨status, -, -, ⟨hnot, -⟩, hdist⟩ := hshows.unique hdisturbed
      exact hnot hdist

end Final

section Moves
variable {K : Type} [Field K] [LinearOrder K]

theorem encode_speed_plain [FloorRing K] {can_id : Nat} {erpm : Dbl K} {e : Exception K}
    (h : encode_speed can_id erpm = .error e) : ¬ Releases e := by
  rintro ⟨err, rfl, -⟩
  unfold encode_speed at h
  split at h
  · cases h
  · cases h
  · cases h
  · dsimp only at h
    split at h
    · cases h
    · split at h <;> cases h

variable {args : IdentifyArgs K} {can_id : Nat} {bus : Bus K} {C : Dbl K → Prop}

theorem supervise_latest_watches :
    Watches args.toArgs (Disturbed args) C (supervise_latest args) :=
  fun status s _ => ⟨_, supervise_verdict args status s.commanded, rfl⟩

theorem show_status_watches (args : JogArgs K) :
    Watches args.toArgs (fun _ => False) (· = args.velocity) (show_status args) := by
  intro status s hspeed
  refine ⟨_, ?_, rfl⟩
  rw [hspeed]
  exact check_following_verdict args.toArgs not_false args.velocity

theorem Going.start {args : Args} {C : Dbl K → Prop} {s : Session K} {v : Dbl K} (hv : C v)
    (htrace : s.trace = [.commanded v]) (hspeed : s.commanded = v)
    (hbrakes : s.release_only = false) : Going args can_id C s := by
  refine ⟨?_, ?_, hspeed ▸ hv, hbrakes⟩
  · rw [htrace]
    exact throughout_nil.snoc fun _ h => by cases h
  · rw [htrace, hspeed]
    exact (latest_commanded_commanded [] v).symm

variable [FloorRing K]

theorem profile_keeps (leg : Dbl K) (sign t : K) :
    Keeps (Going args.toArgs can_id fun _ => True) (Stopped args.toArgs can_id (Disturbed args))
      (profile can_id args leg sign t) := by
  refine keeps_bind (going_lift fun e he => ?_) fun speed => ?_
  · unfold profile_speed at he
    split at he
    · cases he
    · injection he with he
      rintro ⟨err, rfl, -⟩
      cases he
  · exact keeps_bind (going_commanded trivial) fun _ => going_lift fun e he => encode_speed_plain he

theorem pause_keeps (index : Nat) :
    Keeps (Going args.toArgs can_id fun _ => True) (Stopped args.toArgs can_id (Disturbed args))
      (pause bus can_id args index) := by
  unfold pause
  split
  · exact keeps_ret ()
  · refine keeps_bind (going_commanded trivial) fun _ => ?_
    refine keeps_bind (going_lift fun e he => encode_speed_plain he) fun command => ?_
    exact send_for_keeps (fun _ => keeps_ret command) supervise_latest_watches _

theorem out_and_back_keeps (leg : Dbl K) (index : Nat) :
    Keeps (Going args.toArgs can_id fun _ => True) (Stopped args.toArgs can_id (Disturbed args))
      (out_and_back bus can_id args leg index) :=
  keeps_bind (pause_keeps index) fun _ => keeps_each (fun sign =>
    send_for_keeps (profile_keeps leg sign) supervise_latest_watches leg) _

omit [FloorRing K] in
theorem jog_keeps (args : JogArgs K) (command : CanFrame) (duration : Dbl K) :
    Keeps (Going args.toArgs can_id (· = args.velocity))
      (Stopped args.toArgs can_id fun _ => False)
      (do
        send_for bus (fun _ => pure command) can_id (show_status args) duration
        pure 0) :=
  keeps_bind (send_for_keeps (fun _ => keeps_ret command) (show_status_watches args) duration)
    fun _ => keeps_ret 0

variable [IsStrictOrderedRing K]

theorem wiggle_final (start : Session K) :
    Final args.toArgs can_id (Disturbed args)
      (wiggle bus can_id args { start with trace := [] }).2.trace := by
  unfold wiggle
  cases leg_time args with
  | error e => exact .calm throughout_nil
  | ok leg =>
    exact move_final (keeps_each (out_and_back_keeps leg) _) note_stop_handles _
      (Going.start (C := fun _ => True) (v := .fin 0.0) trivial rfl rfl rfl)

theorem jog_final (args : JogArgs K) (duration : Dbl K) (start : Session K) :
    Final args.toArgs can_id (fun _ => False)
      (jog_move bus can_id args duration { start with trace := [] }).2.trace := by
  have hopen : Triple (Going args.toArgs can_id (· = args.velocity)) (open_socket bus)
      (Kept (Going args.toArgs can_id (· = args.velocity)) fun _ s =>
        Calm args.toArgs can_id s.trace) := by
    intro s hs
    unfold open_socket
    split
    · exact .returned () _ ⟨hs.calm, hs.latest, hs.speed, hs.brakes⟩
    · exact .raised _ _ hs.calm
  have hmove : ∀ command, Triple (Going args.toArgs can_id (· = args.velocity))
      (do
        open_socket bus
        ensuring
          (handle (do
            send_for bus (fun _ => pure command) can_id (show_status args) duration
            pure 0) end_jog)
          (finish_move bus can_id))
      fun _ s => Final args.toArgs can_id (fun _ => False) s.trace := by
    intro command
    refine bind_rule hopen (fun _ => ?_) ⟨?_, ?_⟩
    · refine (move_final (jog_keeps args command duration) end_jog_handles).weaken ?_ fun _ _ h => h
      intro s h
      cases h with
      | returned _ _ h => exact h
    · intro e s h
      cases h with
      | raised _ _ h => exact .calm h
    · intro s h
      cases h with
      | running _ h => exact .calm h.calm
  unfold jog_move
  cases encode_speed can_id
      (args.velocity * .fin (erpm_per_rad_s args.pole_pairs args.gear_ratio)) with
  | error e => exact .calm throughout_nil
  | ok command =>
    exact hmove command _
      (Going.start (C := (· = args.velocity)) (v := args.velocity) rfl rfl rfl rfl)

/-- `jog` releases every runaway motor without a brake; `wiggle` does so exactly as long as
no frame that shows the motor running away also shows a fault or too much current. -/
theorem runaway_released (can_id : Nat) (bus : Bus K) (start : Session K) :
    (∀ (args : JogArgs K) (duration : Dbl K),
      Released args.toArgs can_id
        (jog_move bus can_id args duration { start with trace := [] }).2.trace) ∧
    ∀ args : IdentifyArgs K,
      Released args.toArgs can_id (wiggle bus can_id args { start with trace := [] }).2.trace ↔
        Undisturbed args.toArgs can_id (Disturbed args)
          (wiggle bus can_id args { start with trace := [] }).2.trace := by
  refine ⟨fun args duration => ?_, fun args => (wiggle_final start).released_iff⟩
  refine (jog_final args duration start).released_iff.mpr ?_
  rintro before e after - frame - - ⟨status, -, -, hfalse⟩
  exact hfalse

end Moves

/-- The tool with its default arguments. -/
def identify_defaults : IdentifyArgs Rat where
  degrees := ⟨.fin 5.0, by decide +kernel⟩
  speed := ⟨.fin 0.5, by decide +kernel⟩
  max_current := ⟨.fin 1.5, by decide +kernel⟩

def jog_defaults : JogArgs Rat where
  velocity := .fin 1.0
  duration := ⟨.fin 2.0, by decide +kernel⟩
  max_velocity := .fin 3.0
  max_gizmo_travel := ⟨.fin 15.0, by decide +kernel⟩

/-- A clock that advances by 5 ms a reading. -/
def every_5_ms : SteadyClock Rat where
  reading i := i / 200
  mono := by
    intro i j hij
    have h : (i : Rat) ≤ j := Nat.cast_le.mpr hij
    show (i : Rat) / 200 ≤ j / 200
    linarith
  reach t := ⌈200 * t⌉.toNat
  reach_spec t := by
    have h : 200 * t ≤ (⌈200 * t⌉.toNat : Rat) :=
      (Int.le_ceil (200 * t)).trans (by exact_mod_cast Int.self_le_toNat ⌈200 * t⌉)
    show t ≤ (⌈200 * t⌉.toNat : Rat) / 200
    linarith

/-- Motor 12 turns at -16.6 rad/s and reports an over-current. -/
def runaway_over_current : CanFrame :=
  ⟨STATUS <<< 8 ||| 12, [0, 0, 0xF7, 0x55, 0, 0, 25, 2]⟩

def faulty_bench : Bus Rat where
  clock := every_5_ms
  calls := fun _ => true
  receives := fun i => if i = 0 then .frame runaway_over_current else .timeout
  rounds := 100

/-- `jog` receives the frame, and only releases the motor. -/
theorem jog_releases_runaway :
    .received runaway_over_current ∈
        (jog_move faulty_bench 12 jog_defaults (.fin 2.0) { commanded := .fin 0 }).2.trace ∧
      Released jog_defaults.toArgs 12
        (jog_move faulty_bench 12 jog_defaults (.fin 2.0) { commanded := .fin 0 }).2.trace :=
  ⟨by decide +kernel,
    (runaway_released 12 faulty_bench { commanded := .fin 0 }).1 jog_defaults (.fin 2.0)⟩

/-- The motor is braked: the fault is noticed before the speed. -/
theorem wiggle_brakes_runaway : ¬ Released identify_defaults.toArgs 12
    (wiggle faulty_bench 12 identify_defaults { commanded := .fin 0 }).2.trace := by
  intro h
  let trace := (wiggle faulty_bench 12 identify_defaults { commanded := .fin 0 }).2.trace
  have hsplit : trace = trace.take 3 ++ .received runaway_over_current :: trace.drop 4 := by
    decide +kernel
  have hzero : .sent (zero_speed 12) ∈ trace.drop 4 := by decide +kernel
  have hshows : Shows 12 (RunsAway identify_defaults.toArgs) (trace.take 3)
      runaway_over_current :=
    ⟨_, rfl, rfl, _, if_neg (by decide +kernel), by decide +kernel⟩
  exact (h _ _ _ hsplit hshows).1 _ hzero rfl

end IotRobot.Tool
