import IotRobot.Emulator.Motor
import IotRobot.Lib.Runs

/-!
# The emulated motors on the bus

`FakeCubeMars` of `fake_cubemars.py`. Its thread runs one `round` after the other: a tick when
one is due, otherwise it waits for a frame. What other threads do with the lock held comes
between two rounds. `sent` lists the status frames handed to the socket, which may drop them;
no function reads it.
-/

namespace IotRobot.Emulator

open Lib Can

set_option autoImplicit false

/-- The keys of `MODE_NAMES`. -/
def MODES : List Nat :=
  [ MODE_DUTY, MODE_CURRENT, MODE_BRAKE, MODE_SPEED, MODE_POSITION, MODE_SET_ORIGIN,
    MODE_POSITION_SPEED]

/-- What ends the emulator thread. -/
inductive ThreadError (K : Type) where
  | key_error (can_id : Nat)
  | raised (e : Exception K)

/-- A servo command frame received by an emulated motor. -/
structure Command (K : Type) where
  time : K
  can_id : Nat
  mode : Nat
  data : List UInt8
  deriving DecidableEq

/-- The actions of `inject_fault` and `silence`. -/
inductive Action where
  | fault (can_id : Nat) (code : Int)
  | silence (can_id : Nat) (silent : Bool)
  deriving DecidableEq

def Action.can_id : Action → Nat
  | .fault can_id _ => can_id
  | .silence can_id _ => can_id

structure FakeCubeMars (K : Type) where
  rate : K
  /-- The motors' own CAN timeout in seconds; 0 is off. -/
  timeout : K
  motors : Dict Nat (EmulatedMotor K)
  log : List (Command K) := []
  events : List (K × Action) := []
  last : K
  next_tick : K
  sent : List CanFrame := []

section Model
variable {K : Type} [Field K] [LinearOrder K]

/-- A fault stops the motor. -/
def Action.apply (m : EmulatedMotor K) : Action → EmulatedMotor K
  | .fault _ code =>
    let m := { m with error := code }
    if code ≠ 0 then m.release else m
  | .silence _ silent => { m with silent := silent }

/-- `self.motors[can_id]` changes. -/
def Action.perform (motors : Dict Nat (EmulatedMotor K)) (action : Action) :
    Except (ThreadError K) (Dict Nat (EmulatedMotor K)) :=
  match motors.get action.can_id with
  | none => .error (.key_error action.can_id)
  | some m => .ok (motors.set action.can_id (action.apply m))

/-- The motor's own CAN timeout expired. -/
def timed_out (timeout now : K) (m : EmulatedMotor K) : Bool :=
  0 < timeout && m.mode ≠ .idle && m.last_command.any fun r => timeout < now - r

variable (exp : K → K)

/-- The body of the loop of `_tick` over the motors. -/
def tick_motor (timeout now dt : K) (m : EmulatedMotor K) : Except (Exception K) (EmulatedMotor K) :=
  (if timed_out timeout now m then m.release else m).step exp dt

def tick_motors (timeout now dt : K) :
    Dict Nat (EmulatedMotor K) → Except (ThreadError K) (Dict Nat (EmulatedMotor K))
  | [] => .ok []
  | (can_id, m) :: motors =>
    match tick_motor exp timeout now dt m with
    | .error e => .error (.raised e)
    | .ok m =>
      match tick_motors timeout now dt motors with
      | .error e => .error e
      | .ok motors => .ok ((can_id, m) :: motors)

/-- The due actions in the order of their times. -/
def due_actions (now : K) (events : List (K × Action)) : List Action :=
  ((events.filter fun event => event.1 ≤ now).mergeSort fun a b => a.1 ≤ b.1).map Prod.snd

namespace FakeCubeMars

/-- The emulator of some motors when its thread starts. -/
def start (ids : List Nat) (rate position_speed timeout now : K) : Option (FakeCubeMars K) :=
  if rate ≤ 0 then none
  else some
    { rate := rate
      timeout := timeout
      motors := ids.foldl (fun motors can_id => motors.set can_id (.new can_id position_speed)) []
      last := now
      next_tick := now }

/-- `inject_fault` and `silence`: the action is due at the time `due`. -/
def schedule (due : K) (action : Action) (s : FakeCubeMars K) : FakeCubeMars K :=
  { s with events := s.events ++ [(due, action)] }

/-- `self.motors[can_id]` changes, unless the caller's `KeyError` says that there is none. -/
def with_motor (can_id : Nat) (f : EmulatedMotor K → EmulatedMotor K) (s : FakeCubeMars K) :
    FakeCubeMars K :=
  match s.motors.get can_id with
  | none => s
  | some m => { s with motors := s.motors.set can_id (f m) }

/-- `_tick`, with the frames for the bus. -/
def tick [FloorRing K] (now dt : K) (s : FakeCubeMars K) :
    Except (ThreadError K) (FakeCubeMars K × List CanFrame) :=
  match (due_actions now s.events).foldlM Action.perform s.motors with
  | .error e => .error e
  | .ok motors =>
    match tick_motors exp s.timeout now dt motors with
    | .error e => .error e
    | .ok motors =>
      .ok ({ s with
          events := s.events.filter fun event => now < event.1
          motors := motors },
        (motors.filter fun item => !item.2.silent).map fun item => item.2.status)

/-- `_receive`. -/
def receive (frame : CanFrame) (now : K) (s : FakeCubeMars K) :
    Except (ThreadError K) (FakeCubeMars K) :=
  let mode := frame.id >>> 8
  let can_id := frame.id &&& 0xFF
  -- status frames of other motors, or unrelated traffic
  if mode ∉ MODES then .ok s
  else
    match s.motors.get can_id with
    | none => .ok s
    | some m =>
      match m.command mode frame.data now with
      | (.error e, _) => .error (.raised e)
      | (.ok _, m) =>
        .ok { s with
          log := s.log ++ [⟨now, can_id, mode, frame.data⟩]
          motors := s.motors.set can_id m }

/-- The body of the loop of `_run`, with the reading of the clock and what `recv` brings. -/
def round [FloorRing K] (now : K) (received : Option (CanFrame × K)) (s : FakeCubeMars K) :
    Except (ThreadError K) (FakeCubeMars K) :=
  if s.next_tick ≤ now then
    match s.tick exp now (now - s.last) with
    | .error e => .error e
    | .ok (s, frames) =>
      let period := 1 / s.rate
      let next_tick := s.next_tick + period
      .ok { s with
        last := now
        next_tick := if next_tick < now then now + period else next_tick
        sent := s.sent ++ frames }
  else
    match received with
    | none => .ok s
    | some (frame, now) => s.receive frame now

end FakeCubeMars

inductive Event (K : Type) where
  | round (now : K) (received : Option (CanFrame × K))
  | schedule (due : K) (action : Action)
  | set_position (can_id : Nat) (position_deg : K)
  | power_cycle (can_id : Nat) (position_deg : K)
  | inject (can_id : Nat) (stuck ignore_origin : Bool) (load_current_a : K)

variable [FloorRing K]

/-- One event of a run of the emulator. The clock does not go back, and the thread lives. -/
inductive next (s : FakeCubeMars K) : Event K → FakeCubeMars K → Prop
  | round {s' : FakeCubeMars K} (now : K) (received : Option (CanFrame × K))
      (hclock : s.last ≤ now) (hround : s.round exp now received = .ok s') :
      next s (.round now received) s'
  | schedule (due : K) (action : Action) : next s (.schedule due action) (s.schedule due action)
  | set_position (can_id : Nat) (position_deg : K) :
      next s (.set_position can_id position_deg)
        (s.with_motor can_id fun m => m.set_position position_deg)
  | power_cycle (can_id : Nat) (position_deg : K) :
      next s (.power_cycle can_id position_deg)
        (s.with_motor can_id fun m => m.power_cycle position_deg)
  -- the members of a motor that `main` and the tests set
  | inject (can_id : Nat) (stuck ignore_origin : Bool) (load_current_a : K) :
      next s (.inject can_id stuck ignore_origin load_current_a)
        (s.with_motor can_id fun m => m.inject stuck ignore_origin load_current_a)

end Model

section Steps
variable {K : Type}

/-- The logged commands of one motor. -/
def commands_for (can_id : Nat) (log : List (Command K)) : List (Command K) :=
  log.filter fun command => command.can_id = can_id

theorem commands_for_append (can_id : Nat) (log more : List (Command K)) :
    commands_for can_id (log ++ more) = commands_for can_id log ++ commands_for can_id more :=
  List.filter_append ..

variable {motors motors' : Dict Nat (EmulatedMotor K)} {can_id : Nat} {m : EmulatedMotor K}
  {s s' : FakeCubeMars K}

theorem with_motor_get (k : Nat) (f : EmulatedMotor K → EmulatedMotor K)
    (hm : s.motors.get can_id = some m) :
    (s.with_motor k f).motors.get can_id = some (if can_id = k then f m else m) := by
  unfold FakeCubeMars.with_motor
  cases hk : s.motors.get k with
  | none =>
    have hid : can_id ≠ k := fun h => by rw [h, hk] at hm; cases hm
    simpa [hid] using hm
  | some m₀ =>
    simp only [Dict.get_set]
    by_cases hid : can_id = k
    · subst hid
      obtain rfl := Option.some.inj (hk.symm.trans hm)
      simp
    · simpa [hid] using hm

theorem with_motor_log (k : Nat) (f : EmulatedMotor K → EmulatedMotor K) :
    (s.with_motor k f).log = s.log ∧ (s.with_motor k f).last = s.last := by
  unfold FakeCubeMars.with_motor
  cases s.motors.get k <;> exact ⟨rfl, rfl⟩

variable [Field K]

/-- The due actions reach the motors one after the other. -/
theorem perform_actions {actions : List Action}
    (h : actions.foldlM Action.perform motors = .ok motors') (hm : motors.get can_id = some m) :
    motors'.get can_id =
      some ((actions.filter fun action => action.can_id = can_id).foldl Action.apply m) := by
  induction actions generalizing motors m with
  | nil =>
    cases h
    exact hm
  | cons action actions ih =>
    rw [List.foldlM_cons] at h
    cases hget : motors.get action.can_id with
    | none =>
      rw [Action.perform, hget] at h
      cases h
    | some m₀ =>
      rw [Action.perform, hget] at h
      have hset := Dict.get_set motors action.can_id can_id (action.apply m₀)
      by_cases hid : can_id = action.can_id
      · subst hid
        obtain rfl := Option.some.inj (hget.symm.trans hm)
        rw [if_pos rfl] at hset
        simpa using ih h hset
      · rw [if_neg hid, hm] at hset
        simpa [Ne.symm hid] using ih h hset

variable [LinearOrder K] {exp : K → K} {timeout now dt : K}

theorem tick_motors_get (h : tick_motors exp timeout now dt motors = .ok motors')
    (hm : motors.get can_id = some m) :
    ∃ m', tick_motor exp timeout now dt m = .ok m' ∧ motors'.get can_id = some m' := by
  induction motors generalizing motors' with
  | nil => cases hm
  | cons item motors ih =>
    obtain ⟨k, m₀⟩ := item
    rw [tick_motors] at h
    cases hfirst : tick_motor exp timeout now dt m₀ with
    | error e =>
      rw [hfirst] at h
      cases h
    | ok m₁ =>
      rw [hfirst] at h
      cases hrest : tick_motors exp timeout now dt motors with
      | error e =>
        rw [hrest] at h
        cases h
      | ok rest =>
        rw [hrest] at h
        cases h
        unfold Dict.get at hm ih ⊢
        rw [List.lookup_cons] at hm ⊢
        by_cases hid : can_id = k
        · rw [beq_iff_eq.mpr hid] at hm ⊢
          cases hm
          exact ⟨m₁, hfirst, rfl⟩
        · rw [beq_eq_false_iff_ne.mpr hid] at hm ⊢
          exact ih hrest hm

/-- What one event does to the motor with an ID. -/
inductive MotorStep (exp : K → K) (can_id : Nat) (s s' : FakeCubeMars K) :
    Event K → EmulatedMotor K → EmulatedMotor K → Prop
  | rest (e : Event K) (m : EmulatedMotor K)
      (hlog : commands_for can_id s'.log = commands_for can_id s.log) (hlast : s'.last = s.last) :
      MotorStep exp can_id s s' e m m
  | commanded {m m' : EmulatedMotor K} (now : K) (frame : CanFrame) (at_ : K) (result : Bool)
      (hid : frame.id &&& 0xFF = can_id)
      (hcommand : m.command (frame.id >>> 8) frame.data at_ = (.ok result, m'))
      (hlog : s'.log = s.log ++ [⟨at_, can_id, frame.id >>> 8, frame.data⟩])
      (hlast : s'.last = s.last) :
      MotorStep exp can_id s s' (.round now (some (frame, at_))) m m'
  | ticked {m m' : EmulatedMotor K} (now : K) (received : Option (CanFrame × K))
      (htick : tick_motor exp s.timeout now (now - s.last)
        (((due_actions now s.events).filter fun action => action.can_id = can_id).foldl
          Action.apply m) = .ok m')
      (hdue : s.next_tick ≤ now) (hclock : s.last ≤ now) (hlog : s'.log = s.log) (hlast : s'.last = now) :
      MotorStep exp can_id s s' (.round now received) m m'
  | placed (m : EmulatedMotor K) (position_deg : K) (hlog : s'.log = s.log) (hlast : s'.last = s.last) :
      MotorStep exp can_id s s' (.set_position can_id position_deg) m (m.set_position position_deg)
  | cycled (m : EmulatedMotor K) (position_deg : K) (hlog : s'.log = s.log) (hlast : s'.last = s.last) :
      MotorStep exp can_id s s' (.power_cycle can_id position_deg) m (m.power_cycle position_deg)
  | injected (m : EmulatedMotor K) (stuck ignore_origin : Bool) (load_current_a : K) (hlog : s'.log = s.log)
      (hlast : s'.last = s.last) :
      MotorStep exp can_id s s' (.inject can_id stuck ignore_origin load_current_a) m
        (m.inject stuck ignore_origin load_current_a)

/-- A frame is a logged command of one emulated motor, or it changes nothing. -/
theorem receive_cases {frame : CanFrame} (h : s.receive frame now = .ok s') :
    s' = s ∨ ∃ m m' result, s.motors.get (frame.id &&& 0xFF) = some m ∧
      m.command (frame.id >>> 8) frame.data now = (.ok result, m') ∧
      s' = { s with
        log := s.log ++ [⟨now, frame.id &&& 0xFF, frame.id >>> 8, frame.data⟩]
        motors := s.motors.set (frame.id &&& 0xFF) m' } := by
  unfold FakeCubeMars.receive at h
  by_cases hmode : frame.id >>> 8 ∉ MODES
  · rw [if_pos hmode] at h
    exact .inl (Except.ok.inj h).symm
  rw [if_neg hmode] at h
  cases hget : s.motors.get (frame.id &&& 0xFF) with
  | none =>
    rw [hget] at h
    exact .inl (Except.ok.inj h).symm
  | some m =>
    rw [hget] at h
    dsimp only at h
    cases hcommand : m.command (frame.id >>> 8) frame.data now with
    | mk result m' =>
      rw [hcommand] at h
      cases result with
      | error e => cases h
      | ok result => exact .inr ⟨m, m', result, rfl, hcommand, (Except.ok.inj h).symm⟩

variable [FloorRing K]

/-- A round is a tick, or it leaves the clock of the ticks alone. -/
theorem round_cases {received : Option (CanFrame × K)} (h : s.round exp now received = .ok s') :
    (∃ motors motors', s.next_tick ≤ now ∧ (due_actions now s.events).foldlM Action.perform s.motors = .ok motors ∧
      tick_motors exp s.timeout now (now - s.last) motors = .ok motors' ∧ s'.motors = motors' ∧
      s'.log = s.log ∧ s'.last = now ∧ s'.timeout = s.timeout ∧
      s'.events = s.events.filter (fun event => now < event.1) ∧
      s'.sent = s.sent ++ (motors'.filter fun item => !item.2.silent).map fun item => item.2.status) ∨
    (s' = s ∨ ∃ frame at_, received = some (frame, at_) ∧ s.receive frame at_ = .ok s') := by
  unfold FakeCubeMars.round at h
  by_cases hdue : s.next_tick ≤ now
  · left
    rw [if_pos hdue] at h
    unfold FakeCubeMars.tick at h
    cases hacts : (due_actions now s.events).foldlM Action.perform s.motors with
    | error e =>
      rw [hacts] at h
      cases h
    | ok motors =>
      rw [hacts] at h
      dsimp only at h
      cases hmotors : tick_motors exp s.timeout now (now - s.last) motors with
      | error e =>
        rw [hmotors] at h
        cases h
      | ok motors' =>
        rw [hmotors] at h
        cases h
        exact ⟨motors, motors', hdue, rfl, hmotors, rfl, rfl, rfl, rfl, rfl, rfl⟩
  · right
    rw [if_neg hdue] at h
    cases received with
    | none => exact .inl (Except.ok.inj h).symm
    | some p => exact .inr ⟨p.1, p.2, rfl, h⟩

/-- An emulated motor stays, and an event does one of six things to it. -/
theorem motor_step {e : Event K} (hn : next exp s e s') (hm : s.motors.get can_id = some m) :
    ∃ m', s'.motors.get can_id = some m' ∧ MotorStep exp can_id s s' e m m' := by
  cases hn with
  | round now received hclock hround =>
    rcases round_cases hround with ⟨motors, motors', hdue, hacts, hticks, hmotors, hlog, hlast, -⟩ | hrest
    · obtain ⟨m', htick, hget⟩ := tick_motors_get hticks (perform_actions hacts hm)
      exact ⟨m', hmotors ▸ hget, .ticked now received htick hdue hclock hlog hlast⟩
    rcases hrest with rfl | ⟨frame, at_, rfl, hreceive⟩
    · exact ⟨m, hm, .rest _ m rfl rfl⟩
    rcases receive_cases hreceive with rfl | ⟨m₀, m₁, result, hget, hcommand, rfl⟩
    · exact ⟨m, hm, .rest _ m rfl rfl⟩
    by_cases hid : can_id = frame.id &&& 0xFF
    · subst hid
      obtain rfl := Option.some.inj (hget.symm.trans hm)
      refine ⟨m₁, ?_, .commanded now frame at_ result rfl hcommand rfl rfl⟩
      exact (Dict.get_set ..).trans (if_pos rfl)
    · refine ⟨m, ?_, .rest _ m ?_ rfl⟩
      · exact ((Dict.get_set ..).trans (if_neg hid)).trans hm
      · simp [commands_for, Ne.symm hid]
  | schedule due action => exact ⟨m, hm, .rest _ m rfl rfl⟩
  | set_position k position_deg =>
    obtain ⟨hlog, hlast⟩ := with_motor_log (s := s) k fun m => m.set_position position_deg
    refine ⟨_, with_motor_get k _ hm, ?_⟩
    by_cases hid : can_id = k
    · subst hid
      simpa using MotorStep.placed m position_deg hlog hlast
    · simpa [hid] using MotorStep.rest (.set_position k position_deg) m (by rw [hlog]) hlast
  | power_cycle k position_deg =>
    obtain ⟨hlog, hlast⟩ := with_motor_log (s := s) k fun m => m.power_cycle position_deg
    refine ⟨_, with_motor_get k _ hm, ?_⟩
    by_cases hid : can_id = k
    · subst hid
      simpa using MotorStep.cycled m position_deg hlog hlast
    · simpa [hid] using MotorStep.rest (.power_cycle k position_deg) m (by rw [hlog]) hlast
  | inject k stuck ignore_origin load_current_a =>
    obtain ⟨hlog, hlast⟩ := with_motor_log (s := s) k fun m => m.inject stuck ignore_origin load_current_a
    refine ⟨_, with_motor_get k _ hm, ?_⟩
    by_cases hid : can_id = k
    · subst hid
      simpa using MotorStep.injected m stuck ignore_origin load_current_a hlog hlast
    · simpa [hid] using
        MotorStep.rest (.inject k stuck ignore_origin load_current_a) m (by rw [hlog]) hlast

end Steps

end IotRobot.Emulator
