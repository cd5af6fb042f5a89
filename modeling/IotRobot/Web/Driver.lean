import IotRobot.Lib.Traces
import IotRobot.Web.Effects

/-!
# The driver lock and the history of its calls

The lock keeps the latest client and instant only. The history keeps every request that
was granted and every release. A client holds the lock, by the history, if a request of it
was granted less than the timeout ago and it has not released the lock since.
-/

namespace IotRobot.Web

open Lib

set_option autoImplicit false

inductive LockCall (K Client : Type) where
  | request (client : Client) (now : K)
  | holder (now : K)
  | release (client : Client)

inductive LockEvent (K Client : Type) where
  | granted (client : Client) (time : K)
  | released (client : Client)

/-- The lock with the granted requests and the releases so far, oldest first, and the
latest instant. -/
structure LockHistory (K Client : Type) where
  clock : K
  lock : DriverLock K Client
  log : List (LockEvent K Client) := []

section History
variable {K Client : Type} [Field K] [LinearOrder K]

/-- By the log, `client` has an unreleased request younger than `timeout` at `t`. -/
def Holding (log : List (LockEvent K Client)) (timeout t : K) (client : Client) : Prop :=
  ∃ before time after, log = before ++ .granted client time :: after ∧ t - time < timeout ∧
    .released client ∉ after

/-- The most recent granted request is that of `client`, at `time`, and it has not been
released. -/
def LastGranted (log : List (LockEvent K Client)) (client : Client) (time : K) : Prop :=
  ∃ before after, log = before ++ .granted client time :: after ∧
    (∀ other later, .granted other later ∉ after) ∧ .released client ∉ after

/-- The most recent granted request is that of `client`, younger than `timeout` at `t`, and
it has not been released. -/
def Current (log : List (LockEvent K Client)) (timeout t : K) (client : Client) : Prop :=
  ∃ time, LastGranted log client time ∧ t - time < timeout

theorem Current.holding {log : List (LockEvent K Client)} {timeout t : K} {client : Client}
    (h : Current log timeout t client) : Holding log timeout t client := by
  obtain ⟨time, ⟨before, after, hlog, -, hreleased⟩, hyoung⟩ := h
  exact ⟨before, time, after, hlog, hyoung, hreleased⟩

theorem Holding.earlier [IsStrictOrderedRing K] {log : List (LockEvent K Client)}
    {timeout t t' : K} {client : Client} (h : Holding log timeout t client) (hle : t' ≤ t) :
    Holding log timeout t' client := by
  obtain ⟨before, time, after, hlog, hyoung, hreleased⟩ := h
  exact ⟨before, time, after, hlog, (sub_le_sub_right hle time).trans_lt hyoung, hreleased⟩

/-- Who holds the lock by a longer log held it before, or is the last event's client. -/
theorem holding_snoc {log : List (LockEvent K Client)} {e : LockEvent K Client} {timeout t : K}
    {client : Client} (h : Holding (log ++ [e]) timeout t client) :
    (Holding log timeout t client ∧ e ≠ .released client) ∨
      ∃ time, e = .granted client time ∧ t - time < timeout := by
  obtain ⟨before, time, after, hlog, hyoung, hreleased⟩ := h
  rcases split_snoc hlog with ⟨rest, hold, rfl⟩ | ⟨rfl, -, -⟩
  · obtain ⟨hrest, hlast⟩ := not_or.mp (List.mem_append.not.mp hreleased)
    exact .inl ⟨⟨before, time, rest, hold, hyoung, hrest⟩, fun he => hlast (by simp [he])⟩
  · exact .inr ⟨time, rfl, hyoung⟩

omit [Field K] [LinearOrder K] in
theorem lastGranted_snoc {log : List (LockEvent K Client)} {client other : Client} {time : K}
    (h : LastGranted log client time) (hne : other ≠ client) :
    LastGranted (log ++ [.released other]) client time := by
  obtain ⟨before, after, rfl, hlater, hreleased⟩ := h
  refine ⟨before, after ++ [.released other], by simp, fun who later hm => ?_, fun hm => ?_⟩
  · rcases List.mem_append.mp hm with hm | hm
    · exact hlater who later hm
    · simp at hm
  · rcases List.mem_append.mp hm with hm | hm
    · exact hreleased hm
    · simp only [List.mem_singleton, LockEvent.released.injEq] at hm
      exact hne hm.symm

variable [DecidableEq Client]

/-- One call, at an instant that is not before the last one. -/
def lock_next (s : LockHistory K Client) (call : LockCall K Client) (s' : LockHistory K Client) :
    Prop :=
  match call with
  | .request client now => s.clock ≤ now ∧ s' =
      { clock := now
        lock := (s.lock.request client now).2
        log := if (s.lock.request client now).1 then s.log ++ [.granted client now] else s.log }
  | .holder now => s.clock ≤ now ∧ s' = { s with clock := now, lock := (s.lock.holder now).2 }
  | .release client => s' =
      { s with lock := (s.lock.release client).2, log := s.log ++ [.released client] }

def lock_start (timeout t : K) : LockHistory K Client where
  clock := t
  lock := { timeout := timeout }

/-- The lock agrees with the log from the latest instant on. -/
structure LockInv (timeout : K) (s : LockHistory K Client) : Prop where
  limit : s.lock.timeout = timeout
  past : ∀ client time, .granted client time ∈ s.log → time ≤ s.clock
  held : ∀ t client, s.clock ≤ t → Holding s.log timeout t client → s.lock.HeldBy client t
  last : ∀ client, s.lock.driver = some client →
    ∃ time, s.lock.last_command = .fin time ∧ LastGranted s.log client time

omit [DecidableEq Client] in
theorem LockInv.start (timeout t : K) :
    LockInv timeout (lock_start timeout t : LockHistory K Client) := by
  refine ⟨rfl, by simp [lock_start], ?_, by simp [lock_start]⟩
  rintro t client - ⟨before, time, after, hlog, -⟩
  simp [lock_start] at hlog

omit [DecidableEq Client] in
/-- Without a new event the latest instant may pass. -/
theorem LockInv.pass {timeout : K} {s : LockHistory K Client} (h : LockInv timeout s) {now : K}
    (hle : s.clock ≤ now) : LockInv timeout { s with clock := now } :=
  ⟨h.limit, fun client time hm => (h.past client time hm).trans hle,
    fun t client ht => h.held t client (hle.trans ht), h.last⟩

omit [DecidableEq Client] in
theorem taken_held {lock : DriverLock K Client} {client : Client} {now t : K}
    (h : t - now < lock.timeout) : (lock.taken client now).HeldBy client t := by
  refine ⟨rfl, decide_eq_false ?_⟩
  show ¬ Dbl.fin lock.timeout ≤ .fin t - .fin now
  rw [Dbl.fin_sub_fin, Dbl.fin_le_fin]
  exact not_le.mpr h

variable [IsStrictOrderedRing K]

theorem LockInv.request {timeout : K} {s s' : LockHistory K Client} {client : Client} {now : K}
    (h : LockInv timeout s) (hn : lock_next s (.request client now) s') : LockInv timeout s' := by
  obtain ⟨hclock, rfl⟩ := hn
  rcases s.lock.request_cases client now with ⟨other, -, -, hr⟩ | ⟨hfree, hr⟩
  · rw [hr]
    exact h.pass hclock
  · rw [hr]
    refine ⟨h.limit, fun who time hm => ?_, fun t who ht hholding => ?_, fun who hwho => ?_⟩
    · rcases List.mem_append.mp hm with hm | hm
      · exact (h.past who time hm).trans hclock
      · simp only [List.mem_singleton, LockEvent.granted.injEq] at hm
        exact hm.2.le
    · -- an older grant is the same client's, and this one is younger
      rcases holding_snoc hholding with ⟨hold, -⟩ | ⟨time, he, hyoung⟩
      · have heq : client = who := hfree.eq_of_held (h.held now who hclock (hold.earlier ht))
        subst heq
        obtain ⟨before, time, after, hlog, hyoung, -⟩ := hold
        have hpast : time ≤ s.clock := h.past client time (by rw [hlog]; simp)
        apply taken_held
        rw [h.limit]
        exact (sub_le_sub_left (hpast.trans hclock) t).trans_lt hyoung
      · injection he with hwho htime
        subst hwho htime
        apply taken_held
        rw [h.limit]
        exact hyoung
    · injection hwho with hwho
      subst hwho
      exact ⟨now, rfl, s.log, [], rfl, by simp, by simp⟩

theorem LockInv.holder {timeout : K} {s s' : LockHistory K Client} {now : K}
    (h : LockInv timeout s) (hn : lock_next s (.holder now) s') : LockInv timeout s' := by
  obtain ⟨hclock, rfl⟩ := hn
  refine ⟨DriverLock.holder_timeout.trans h.limit,
    fun client time hm => (h.past client time hm).trans hclock, fun t client ht hholding => ?_,
    fun client hclient => ?_⟩
  · have hheld : s.lock.HeldBy client now := h.held now client hclock (hholding.earlier ht)
    rw [DriverLock.holder_held hheld]
    exact h.held t client (hclock.trans ht) hholding
  · unfold DriverLock.holder at hclient ⊢
    by_cases hc : s.lock.driver ≠ none ∧ s.lock.expired now
    · rw [if_pos hc] at hclient
      cases hclient
    · rw [if_neg hc] at hclient ⊢
      exact h.last client hclient

omit [IsStrictOrderedRing K] in
theorem LockInv.release {timeout : K} {s s' : LockHistory K Client} {client : Client}
    (h : LockInv timeout s) (hn : lock_next s (.release client) s') : LockInv timeout s' := by
  subst hn
  have htimeout : (s.lock.release client).2.timeout = s.lock.timeout := by
    unfold DriverLock.release
    split
    · rfl
    · rfl
  -- the lock of another client stays as it is
  have hother : s.lock.driver ≠ some client → (s.lock.release client).2 = s.lock := by
    intro hne
    unfold DriverLock.release
    rw [if_pos hne]
  refine ⟨htimeout.trans h.limit, fun who time hm => ?_, fun t who ht hholding => ?_,
    fun who hwho => ?_⟩
  · rcases List.mem_append.mp hm with hm | hm
    · exact h.past who time hm
    · simp at hm
  · rcases holding_snoc hholding with ⟨hold, hne⟩ | ⟨time, he, -⟩
    · have hheld := h.held t who ht hold
      show (s.lock.release client).2.HeldBy who t
      rw [hother]
      · exact hheld
      · rw [hheld.driver]
        intro heq
        injection heq with heq
        exact hne (congrArg _ heq.symm)
    · cases he
  · by_cases hd : s.lock.driver = some client
    · have hnone : (s.lock.release client).2.driver = none := by
        unfold DriverLock.release
        rw [if_neg (not_not.mpr hd)]
      rw [hnone] at hwho
      cases hwho
    · have hwho : s.lock.driver = some who := by
        rw [← hother hd]
        exact hwho
      obtain ⟨time, hlast, hgranted⟩ := h.last who hwho
      refine ⟨time, ?_, lastGranted_snoc hgranted fun heq => hd (heq ▸ hwho)⟩
      show (s.lock.release client).2.last_command = _
      rw [hother hd]
      exact hlast

theorem run_lock {timeout t : K} {calls : List (LockCall K Client)} {s : LockHistory K Client}
    (h : Run lock_next (lock_start timeout t) calls s) : LockInv timeout s := by
  refine h.invariant (LockInv timeout) (LockInv.start timeout t) fun a b call ha hn => ?_
  cases call with
  | request client now => exact ha.request hn
  | holder now => exact ha.holder hn
  | release client => exact ha.release hn

omit [IsStrictOrderedRing K] [DecidableEq Client] in
/-- Whoever the lock names is current by the log. -/
theorem LockInv.current {timeout : K} {s : LockHistory K Client} (h : LockInv timeout s) {t : K}
    {client : Client} (hheld : s.lock.HeldBy client t) : Current s.log timeout t client := by
  obtain ⟨time, hlast, hgranted⟩ := h.last client hheld.driver
  refine ⟨time, hgranted, ?_⟩
  have hfresh : ¬ Dbl.fin s.lock.timeout ≤ .fin t - s.lock.last_command :=
    of_decide_eq_false hheld.fresh
  rw [hlast, h.limit, Dbl.fin_sub_fin, Dbl.fin_le_fin] at hfresh
  exact not_le.mp hfresh

/-- After every sequence of calls and at every later instant, the lock answers what its
history says: a request is granted unless another client holds it, the holder is the
current client, and no two clients hold it. -/
theorem lock_equals_history {timeout start : K} {calls : List (LockCall K Client)}
    {s : LockHistory K Client} (h : Run lock_next (lock_start timeout start) calls s) (t : K)
    (ht : s.clock ≤ t) :
    (∀ client, (s.lock.request client t).1 = true ↔
      ¬ ∃ other, other ≠ client ∧ Holding s.log timeout t other) ∧
    (∀ client, (s.lock.holder t).1 = some client ↔ Current s.log timeout t client) ∧
    ∀ client other, Holding s.log timeout t client → Holding s.log timeout t other →
      client = other := by
  have hinv := run_lock h
  refine ⟨fun client => ?_, fun client => ⟨fun hholder => ?_, fun hcurrent => ?_⟩, ?_⟩
  · rcases s.lock.request_cases client t with ⟨other, hne, hheld, hr⟩ | ⟨hfree, hr⟩
    · rw [hr]
      exact iff_of_false Bool.false_ne_true
        fun hnone => hnone ⟨other, hne, (hinv.current hheld).holding⟩
    · rw [hr]
      refine iff_of_true rfl fun ⟨other, hne, hholding⟩ => hne ?_
      exact (hfree.eq_of_held (hinv.held t other ht hholding)).symm
  · exact hinv.current (DriverLock.held_of_holder hholder)
  · rw [DriverLock.holder_held (hinv.held t client ht hcurrent.holding)]
  · intro client other hclient hother
    have h₁ := (hinv.held t client ht hclient).driver
    have h₂ := (hinv.held t other ht hother).driver
    exact Option.some.inj (h₁.symm.trans h₂)

end History

/-- Client 1 drives at 0, with a timeout of 2. -/
def driving : LockHistory ℚ Nat where
  clock := 0
  lock := { timeout := 2, driver := some 1, last_command := .fin 0 }
  log := [.granted 1 0]

theorem driving_run : Run lock_next (lock_start 2 0) [.request 1 0] driving :=
  Run.single ⟨le_refl _, rfl⟩

/-- At 1 another client is refused: the first one holds the lock. -/
theorem driving_refuses : ∃ other, other ≠ 2 ∧ Holding driving.log 2 1 other := by
  have hrefused : ¬ (driving.lock.request 2 1).1 = true := by decide +kernel
  have hhistory := lock_equals_history driving_run 1 (by decide +kernel)
  exact not_not.mp fun hnone => hrefused ((hhistory.1 2).mpr hnone)

end IotRobot.Web
