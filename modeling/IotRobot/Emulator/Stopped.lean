import IotRobot.Emulator.Rest
import IotRobot.Safe.StopInvariant

/-!
# The plugin's stop at the emulated motors

The plugin and the emulator meet on the bus: of the frames that the plugin sends, the emulator
logs some, in their order. After a stop only frames that drive nothing are sent, so a motor
that has heard one of the stop's own frames coasts at most, until the next activation.
-/

namespace IotRobot.Emulator

open Lib Can

set_option autoImplicit false

section Frames
variable {K : Type}

/-- The frame of a logged command. -/
def Command.frame (c : Command K) : CanFrame := ⟨c.mode <<< 8 ||| c.can_id, c.data⟩

def bus_frame {n : Nat} : Safe.Bus n → CanFrame
  | .own _ frame => frame
  | .upstream frame => frame

theorem frame_mode {c : Command K} (hid : c.can_id < 256) {mode can_id : Nat} {data : List UInt8}
    (h : c.frame = ⟨mode <<< 8 ||| can_id, data⟩) :
    c.mode = mode ||| can_id >>> 8 ∧ c.data = data := by
  obtain ⟨hids, hdata⟩ := CanFrame.mk.inj h
  apply And.intro _ hdata
  have hmode := (command_id_split hid c.mode).1
  rw [hids, Nat.shiftRight_or_distrib, Nat.shiftLeft_shiftRight] at hmode
  exact hmode.symm

variable [Field K]

/-- A payload of four zeros is the value zero. -/
theorem decode_command_zero {mode : Nat} (horigin : mode ≠ MODE_SET_ORIGIN) {value : K}
    (h : decode_command mode (int32_bytes 0) = some value) : value = 0 := by
  have hraw : int32 0 0 0 0 = 0 := by decide
  unfold decode_command at h
  rw [if_neg horigin, show int32_bytes 0 = [0, 0, 0, 0] from by decide] at h
  dsimp only at h
  rw [hraw] at h
  split_ifs at h <;> simpa using h.symm

/-- The plugin's own modes are odd, and no odd mode has a position. -/
theorem odd_mode {mode bits : Nat} (h : mode % 2 = 1) :
    mode ||| bits ≠ MODE_POSITION ∧ mode ||| bits ≠ MODE_POSITION_SPEED := by
  have hodd : (mode ||| bits) % 2 = 1 := Nat.or_mod_two_eq_one.mpr (.inl h)
  unfold MODE_POSITION MODE_POSITION_SPEED
  omega

theorem decode_command_modes {mode : Nat} {data : List UInt8} {value : K}
    (h : decode_command mode data = some value) (hodd : mode ≠ MODE_POSITION ∧ mode ≠ MODE_POSITION_SPEED) :
    mode = MODE_SET_ORIGIN ∨ mode = MODE_CURRENT ∨ mode = MODE_BRAKE ∨ (mode = MODE_SPEED ∨ mode = MODE_DUTY) := by
  unfold decode_command at h
  split at h
  · exact .inl ‹_›
  split at h
  · split_ifs at h with hduty hcurrent hspeed hposition
    · exact .inr (.inr (.inr (.inr hduty)))
    · rcases hcurrent with hcurrent | hbrake
      · exact .inr (.inl hcurrent)
      · exact .inr (.inr (.inl hbrake))
    · exact .inr (.inr (.inr (.inl hspeed)))
    · exact absurd hposition (not_or.mpr hodd)
  · cases h

variable {command : Command K}

/-- The stop's frames stop the motor that they are for. -/
theorem stop_frame_stops {p : Safe.JointParams K} (hid : command.can_id < 256) (hp : p.can_id = command.can_id)
    (hframe : command.frame = Safe.zero_speed p ∨ command.frame = Safe.zero_current p) :
    Stopping K command.mode command.data ∧
      (command.frame = Safe.zero_current p → command.mode = MODE_CURRENT) := by
  have hsplit : ∀ mode, command.frame = int32_frame (mode <<< 8 ||| p.can_id) 0 →
      command.mode = mode ∧ command.data = int32_bytes 0 := by
    intro mode h
    obtain ⟨hmode, hdata⟩ := frame_mode hid h
    rw [hp, Nat.shiftRight_eq_zero _ _ hid, Nat.or_zero] at hmode
    exact ⟨hmode, hdata⟩
  have hraw : int32 0 0 0 0 = 0 := by decide
  have hbytes : int32_bytes 0 = [0, 0, 0, 0] := by decide
  constructor
  · rcases hframe with h | h
    · obtain ⟨hmode, hdata⟩ := hsplit Safe.kModeSpeed h
      refine ⟨.inl hmode, ?_⟩
      rw [hmode, hdata, hbytes]
      simp [decode_command, hraw, Safe.kModeSpeed, MODE_SET_ORIGIN, MODE_DUTY, MODE_CURRENT, MODE_BRAKE, MODE_SPEED]
    · obtain ⟨hmode, hdata⟩ := hsplit Safe.kModeCurrent h
      refine ⟨.inr hmode, ?_⟩
      rw [hmode, hdata, hbytes]
      simp [decode_command, hraw, Safe.kModeCurrent, MODE_SET_ORIGIN, MODE_DUTY, MODE_CURRENT]
  · exact fun h => (hsplit Safe.kModeCurrent h).1

variable [LinearOrder K] {n : Nat} {c : Safe.Component K n}

/-- A motor that receives a frame that drives nothing receives a passive command. -/
theorem harmless_passive (hid : command.can_id < 256) {b : Safe.Bus n} (hb : Safe.Harmless c b)
    (hframe : command.frame = bus_frame b) : Passive K command.mode command.data := by
  have hzero : ∀ mode can_id, mode % 2 = 1 → command.frame = int32_frame (mode <<< 8 ||| can_id) 0 →
      Passive K command.mode command.data := by
    intro mode can_id hodd h value hvalue
    obtain ⟨hmode, hdata⟩ := frame_mode hid h
    by_cases horigin : command.mode = MODE_SET_ORIGIN
    · exact .inl horigin
    rw [hdata] at hvalue
    have hmodes := decode_command_modes hvalue (hmode ▸ odd_mode hodd)
    rcases hmodes with h | h | h | h
    · exact .inl h
    · exact .inr (.inl h)
    · exact .inr (.inr (.inl h))
    · exact .inr (.inr (.inr ⟨h, decode_command_zero horigin hvalue⟩))
  obtain ⟨i, rfl | rfl | rfl⟩ := hb
  · exact hzero Safe.kModeSpeed (c.joint i).can_id (by decide) hframe
  · exact hzero Safe.kModeCurrent (c.joint i).can_id (by decide) hframe
  · intro value hvalue
    obtain ⟨-, hdata⟩ := frame_mode hid hframe
    by_cases horigin : command.mode = MODE_SET_ORIGIN
    · exact .inl horigin
    · simp [hdata, decode_command, horigin] at hvalue

/-- A frame that drives nothing has the value zero for the motor that receives it. -/
theorem harmless_zero (hid : command.can_id < 256) {b : Safe.Bus n} (hb : Safe.Harmless c b)
    (hframe : command.frame = bus_frame b) {value : K}
    (hvalue : decode_command command.mode command.data = some value) : value = 0 := by
  have hbytes : int32_bytes 0 = [0, 0, 0, 0] := by decide
  by_cases horigin : command.mode = MODE_SET_ORIGIN
  · have hhead : command.data.head? = some 0 := by
      obtain ⟨i, rfl | rfl | rfl⟩ := hb
      · rw [(frame_mode hid hframe).2, hbytes]
        rfl
      · rw [(frame_mode hid hframe).2, hbytes]
        rfl
      · rw [(frame_mode hid hframe).2]
        rfl
    unfold decode_command at hvalue
    rw [if_pos horigin, hhead] at hvalue
    simpa using hvalue.symm
  · obtain ⟨i, rfl | rfl | rfl⟩ := hb
    · rw [(frame_mode hid hframe).2] at hvalue
      exact decode_command_zero horigin hvalue
    · rw [(frame_mode hid hframe).2] at hvalue
      exact decode_command_zero horigin hvalue
    · simp [(frame_mode hid hframe).2, decode_command, horigin] at hvalue

end Frames

section Runs
variable {K : Type} [Field K] [LinearOrder K] [IsStrictOrderedRing K] [FloorRing K]

omit [IsStrictOrderedRing K] [FloorRing K] in
/-- What the plugin sends between the event that stops its motors and the next activation
drives nothing. -/
theorem stop_attempts_harmless {n : Nat} {c : Safe.Component K n} {env : Safe.Env}
    {es fs : List (Safe.Event K n)} {e : Safe.Event K n} {m m' m'' : Safe.Managed K n}
    (hplugin : Run (Safe.next c env) {} es m) (hstop : Safe.next c env m e m')
    (hmust : Safe.MustStop c env e m.system m'.system) (hquiet : Run (Safe.next_quiet c env) m' fs m'')
    {attempts : List (Safe.Bus n)} (hbus : m''.system.bus = m.system.bus ++ attempts) :
    ∀ b ∈ attempts, Safe.Harmless c b := by
  have hi := Safe.run_inv c env hplugin
  have hstops := Safe.must_stop_stops c env hi hstop hmust
  have hsends := (Safe.quiet_run c env (Safe.next_inv c env hi hstop) hstops.stopped hquiet).2.2
  obtain ⟨sent, hsent, hharmless⟩ := hstops.sends.trans hsends
  rw [List.append_cancel_left (hbus.symm.trans hsent)]
  exact hharmless

omit [IsStrictOrderedRing K] in
/-- What a motor hears of such frames is its own, drives nothing and has the value zero. -/
theorem delivered_harmless {exp : K → K} {n : Nat} {c : Safe.Component K n} {attempts : List (Safe.Bus n)}
    (hharmless : ∀ b ∈ attempts, Safe.Harmless c b) {s₀ t : FakeCubeMars K} {es : List (Event K)}
    (hempty : s₀.log = []) (hr : Run (next exp) s₀ es t) {can_id : Nat} {before cs : List (Command K)}
    (hlog : commands_for can_id t.log = before ++ cs)
    (hdelivered : (cs.map Command.frame).Sublist (attempts.map bus_frame)) {command : Command K}
    (hcommand : command ∈ cs) :
    command.can_id = can_id ∧ command.can_id < 256 ∧ Passive K command.mode command.data ∧
      ∀ value : K, decode_command command.mode command.data = some value → value = 0 := by
  have hmem : command ∈ commands_for can_id t.log := by
    rw [hlog]
    exact List.mem_append_right _ hcommand
  obtain ⟨hlogged, hcan_id⟩ := List.mem_filter.mp hmem
  have hbyte := run_log_ids hr (by simp [hempty]) command hlogged
  obtain ⟨b, hb, hframe⟩ := List.mem_map.mp (hdelivered.subset (List.mem_map_of_mem hcommand))
  exact ⟨by simpa using hcan_id, hbyte, harmless_passive hbyte (hharmless b hb) hframe.symm,
    fun value => harmless_zero hbyte (hharmless b hb) hframe.symm⟩

/-- After the plugin's stop a motor that has heard one of the stop's frames, or a later one of
them, is driven by nothing. From any moment on it travels no further than it can coast, and
it is idle once the last it heard is a release. -/
theorem stopped_motor_rests {exp : K → K} (hexp : Exponential exp)
    {n : Nat} {c : Safe.Component K n} {env : Safe.Env}
    {es fs : List (Safe.Event K n)} {e : Safe.Event K n} {m m' m'' : Safe.Managed K n}
    (hplugin : Run (Safe.next c env) {} es m) (hstop : Safe.next c env m e m')
    (hmust : Safe.MustStop c env e m.system m'.system) (hquiet : Run (Safe.next_quiet c env) m' fs m'')
    {attempts : List (Safe.Bus n)} (hbus : m''.system.bus = m.system.bus ++ attempts)
    {ids : List Nat} {rate position_speed timeout booted : K} {s₀ s u t : FakeCubeMars K}
    {ds₀ ds₁ ds₂ : List (Event K)}
    (hstart : FakeCubeMars.start ids rate position_speed timeout booted = some s₀)
    (hbefore : Run (next exp) s₀ ds₀ s) (hheard : Run (next exp) s ds₁ u) (hafter : Run (next exp) u ds₂ t)
    (i : Fin n) (hid : (c.joint i).can_id ∈ ids)
    {heard more : List (Command K)}
    (hlog₁ : commands_for (c.joint i).can_id u.log = commands_for (c.joint i).can_id s.log ++ heard)
    (hlog₂ : commands_for (c.joint i).can_id t.log = commands_for (c.joint i).can_id u.log ++ more)
    (hdelivered : ((heard ++ more).map Command.frame).Sublist (attempts.map bus_frame))
    (hstopped : ∃ command ∈ heard, command.frame = Safe.zero_speed (c.joint i) ∨
      command.frame = Safe.zero_current (c.joint i))
    (hhands : ∀ d ∈ ds₂, ¬ Handled (c.joint i).can_id d) :
    ∃ mu mt, u.motors.get (c.joint i).can_id = some mu ∧ t.motors.get (c.joint i).can_id = some mt ∧
      Undriven mu.toFakeMotor ∧ Undriven mt.toFakeMotor ∧
      |mt.encoder_deg - mu.encoder_deg| + COAST_TIME_CONSTANT * |mt.dps| ≤ COAST_TIME_CONSTANT * |mu.dps| ∧
      (((heard ++ more).map Command.frame).getLast? = some (Safe.zero_current (c.joint i)) →
        mt.mode = .idle) := by
  have hharmless := stop_attempts_harmless hplugin hstop hmust hquiet hbus
  obtain ⟨hmotor, hempty⟩ := start_motor hstart hid
  obtain ⟨m₁, cs₀, hm₁, hs₁, -⟩ := run_motor hbefore hmotor (sound_new _ _)
  have hboth : commands_for (c.joint i).can_id t.log =
      commands_for (c.joint i).can_id s.log ++ (heard ++ more) := by
    rw [hlog₂, hlog₁, List.append_assoc]
  have hown : ∀ command ∈ heard ++ more, command.can_id = (c.joint i).can_id ∧ command.can_id < 256 ∧
      Passive K command.mode command.data ∧ _ := fun command hcommand =>
    delivered_harmless hharmless hempty ((hbefore.append hheard).append hafter) hboth hdelivered hcommand
  obtain ⟨stop, hstop_heard, hstop_frame⟩ := hstopped
  have hstop_own := hown stop (List.mem_append_left _ hstop_heard)
  have hstops := (stop_frame_stops hstop_own.2.1 hstop_own.1.symm hstop_frame).1
  obtain ⟨mu, hmu, hsu, hundriven, -⟩ := run_stops hheard hm₁ hs₁ hlog₁
    fun command hcommand => (hown command (List.mem_append_left _ hcommand)).2.2.1
  have hu := hundriven (.inr ⟨stop, hstop_heard, hstops⟩)
  obtain ⟨mt, hmt, hut, htravel⟩ := run_coasts hexp hafter hmu hsu hu hhands hlog₂
    fun command hcommand => (hown command (List.mem_append_right _ hcommand)).2.2.1
  refine ⟨mu, mt, hmu, hmt, hu, hut, htravel, fun hlast => ?_⟩
  rw [List.getLast?_map, Option.map_eq_some_iff] at hlast
  obtain ⟨release, hrelease, hframe⟩ := hlast
  have hrelease_own := hown release (List.mem_of_getLast? hrelease)
  obtain ⟨hreleases, hmode⟩ := stop_frame_stops hrelease_own.2.1 hrelease_own.1.symm (.inr hframe)
  obtain ⟨mt', hmt', -, -, hidle⟩ := run_stops (hheard.append hafter) hm₁ hs₁ hboth
    fun command hcommand => (hown command hcommand).2.2.1
  obtain rfl := Option.some.inj (hmt.symm.trans hmt')
  exact hidle release hrelease (hmode hframe) hreleases

end Runs

/-- It hears the plugin's last zero speed. -/
def braked : FakeCubeMars ℚ := after_round driven 0 (some (Safe.zero_speed (Safe.gizmo.joint (Fin.last 0)), 0))

/-- It hears the release. -/
def released : FakeCubeMars ℚ := after_round braked 0 (some (Safe.zero_current (Safe.gizmo.joint (Fin.last 0)), 0))

/-- The plugin after its first `read`, which finds the fault. -/
def stopped_plugin : Safe.Managed ℚ 1 :=
  Safe.perform Safe.gizmo (Safe.fault_at 2) (Safe.started_up 2) (.read .OK fun _ _ => .nan)

/-- A motor that was driven hears two frames of the plugin's stop. -/
theorem stopped_motor_rests_on_fault :
    ∃ mu mt, braked.motors.get 1 = some mu ∧ released.motors.get 1 = some mt ∧
      Undriven mu.toFakeMotor ∧ Undriven mt.toFakeMotor ∧
      |mt.encoder_deg - mu.encoder_deg| + COAST_TIME_CONSTANT * |mt.dps| ≤ COAST_TIME_CONSTANT * |mu.dps| ∧
      mt.mode = .idle := by
  have hl : (Safe.started_up 2).lifecycle ≠ .destroyed := by decide +kernel
  have ha : (Safe.started_up 2).system.active = true := by decide +kernel
  have hoff : stopped_plugin.system.active = false := by decide +kernel
  have hbus : stopped_plugin.system.bus = (Safe.started_up 2).system.bus ++
      stopped_plugin.system.bus.drop (Safe.started_up 2).system.bus.length := by decide +kernel
  have hbraked : Run (next rational_exp) driven [.round 0 (some (Safe.zero_speed (Safe.gizmo.joint 0), 0))] braked :=
    .single (after_round_next (by decide +kernel) (by decide +kernel))
  have hreleased : Run (next rational_exp) braked
      [.round 0 (some (Safe.zero_current (Safe.gizmo.joint 0), 0))] released :=
    .single (after_round_next (by decide +kernel) (by decide +kernel))
  have hread : Safe.next Safe.gizmo (Safe.fault_at 2) (Safe.started_up 2) (.read .OK fun _ _ => .nan) stopped_plugin :=
    ⟨hl, rfl⟩
  have hheard : commands_for 1 braked.log = commands_for 1 driven.log ++ [⟨0, 1, 3, int32_bytes 0⟩] := by
    decide +kernel
  have hmore : commands_for 1 released.log = commands_for 1 braked.log ++ [⟨0, 1, 1, int32_bytes 0⟩] := by
    decide +kernel
  obtain ⟨mu, mt, hmu, hmt, hu, ht, htravel, hidle⟩ := stopped_motor_rests rational_exponential
    (Safe.started_up_run 2) hread (.inl ⟨ha, .inl hoff⟩) .nil hbus one_motor_starts driven_run hbraked
    hreleased 0 (by decide) hheard hmore (by decide +kernel) ⟨_, List.mem_singleton.mpr rfl, .inl rfl⟩
    (by
      intro d hd
      rw [List.mem_singleton.mp hd]
      rintro ⟨position_deg, h | h⟩ <;> cases h)
  exact ⟨mu, mt, hmu, hmt, hu, ht, htravel, hidle rfl⟩

end IotRobot.Emulator
