import IotRobot.Safe.Twins
import IotRobot.Safe.StopInvariant

/-!
# Mirror-mounted motors

A motor mounted the other way round turns backwards: its raw position and current change
their signs, and so do the direction and the encoder offset that are configured for it.
In the joint frame nothing changes. What the component hands to the upstream plugin for
that motor is in the motor's frame, and is negated.
-/

namespace IotRobot.Safe

open Lib Can

set_option autoImplicit false

section Parts
variable {K : Type} [Field K] [LinearOrder K] [IsStrictOrderedRing K]

def Joint.mirror : Bool → Joint K → Joint K
  | true, joint => { joint with
      raw_position := -joint.raw_position
      raw_current := -joint.raw_current }
  | false, joint => joint

def JointParams.mirror : Bool → JointParams K → JointParams K
  | true, p => { p with direction := -p.direction, enc_off := -p.enc_off }
  | false, p => p

theorem JointParams.Valid.direction_ne {p : JointParams K} (h : p.Valid) : p.direction ≠ 0 := by
  rcases h.direction with hd | hd
  · rw [hd]
    exact one_ne_zero
  · rw [hd]
    exact neg_ne_zero.mpr one_ne_zero

omit [IsStrictOrderedRing K] in
theorem JointParams.Valid.mirror {p : JointParams K} (h : p.Valid) (flip : Bool) :
    (p.mirror flip).Valid := by
  cases flip with
  | false => exact h
  | true =>
    refine ⟨?_, h.gear_ratio, h.stall_effort, h.max_velocity, h.limits⟩
    show -p.direction = 1 ∨ -p.direction = -1
    rcases h.direction with hd | hd
    · exact Or.inr (by rw [hd])
    · exact Or.inl (by rw [hd, neg_neg])

variable {p : JointParams K} {j : Joint K}

/-- The joint is where it was. -/
theorem measured_mirror (flip : Bool) :
    measured_position (p.mirror flip) (j.mirror flip) = measured_position p j := by
  cases flip with
  | false => rfl
  | true =>
    simp only [measured_position, JointParams.mirror, Joint.mirror, Int.cast_neg]
    congr 2
    ring

omit [IsStrictOrderedRing K] in
theorem effort_mirror (flip : Bool) :
    effort (p.mirror flip) (j.mirror flip) = effort p j := by
  cases flip with
  | false => rfl
  | true =>
    simp only [effort, JointParams.mirror, Joint.mirror, Int.cast_neg, neg_mul, abs_neg]

omit [IsStrictOrderedRing K] in
theorem shows_mirror (flip : Bool) : Shows p (p.mirror flip) j (j.mirror flip) := by
  have heffort := effort_mirror (p := p) (j := j) flip
  cases flip with
  | false => exact ⟨rfl, rfl, rfl, rfl, rfl, rfl, rfl, rfl, rfl⟩
  | true =>
    refine ⟨rfl, rfl, rfl, rfl, rfl, rfl, rfl, heffort, ?_⟩
    simp only [Joint.mirror, Int.cast_neg, neg_mul, abs_neg]

theorem start_mirror (flip claimed : Bool) :
    (j.mirror flip).start (p.mirror flip) claimed = (j.start p claimed).mirror flip := by
  have hmeasured := measured_mirror (p := p) (j := j) flip
  cases flip with
  | false => rfl
  | true => simp only [Joint.start, hmeasured]; rfl

theorem switched_mirror (flip claims starts stops active : Bool) (release_at : Nat) :
    (j.mirror flip).switched (p.mirror flip) claims starts stops active release_at =
      (j.switched p claims starts stops active release_at).mirror flip := by
  -- what precedes the start does not depend on the mounting
  let released : Joint K := if stops && !starts && active then
      { (if stops then j.unclaim else j) with releasing := true, release_at := release_at }
    else if stops then j.unclaim else j
  have hstart := start_mirror (p := p) (j := released) flip claims
  cases flip with
  | false => rfl
  | true =>
    cases starts with
    | false => cases stops <;> cases active <;> rfl
    | true => cases stops <;> exact hstart

theorem scale_mirror (hp : p.Valid) (flip : Bool) (v : Dbl K) :
    v.scale (p.mirror flip).direction = (v.scale p.direction).flip flip := by
  cases flip with
  | false => rfl
  | true => exact Dbl.scale_neg hp.direction_ne v

theorem position_command_mirror (hp : p.Valid) (flip : Bool) (dt : K) :
    position_command (p.mirror flip) (j.mirror flip) dt =
      ((position_command p j dt).1, (position_command p j dt).2.flip flip) := by
  have hmeasured := measured_mirror (p := p) (j := j) flip
  have hscale := scale_mirror hp flip
  have hslewed : ∀ target,
      slewed (p.mirror flip) (j.mirror flip) target dt = slewed p j target dt := by
    cases flip <;> exact fun _ => rfl
  have hclaimed : (j.mirror flip).position_claimed = j.position_claimed := by
    cases flip <;> rfl
  have htarget : (j.mirror flip).target = j.target := by cases flip <;> rfl
  have hnan : (Dbl.nan : Dbl K).flip flip = .nan := by cases flip <;> rfl
  simp only [position_command, hmeasured, hscale, hslewed, hclaimed, htarget]
  split_ifs <;> simp only [hnan]

theorem written_mirror (hp : p.Valid) (flip : Bool) (dt : K) (t : Nat) :
    (j.mirror flip).written (p.mirror flip) dt t =
      (j.written p dt t).mirror flip := by
  have hcommand := position_command_mirror (j := j) hp flip dt
  unfold Joint.written
  rw [hcommand]
  cases flip with
  | false => rfl
  | true => rfl

/-- What is handed on for a mirrored joint is negated. -/
def Handed.mirror {n : Nat} (k : Fin n) (h : Handed K n) : Handed K n :=
  { h with value := h.value.flip (decide (h.joint = k)) }

theorem handed_mirror {n : Nat} (hp : p.Valid) (k i : Fin n) (dt : K) :
    handed_on (p.mirror (decide (i = k))) i dt (j.mirror (decide (i = k))) =
      (handed_on p i dt j).map (Handed.mirror k) := by
  have hcommand := position_command_mirror (j := j) hp (decide (i = k)) dt
  have hscale := scale_mirror hp (decide (i = k))
  have hown : ∀ (b : Bool) (interface : Interface) (value : Dbl K),
      (if b then [⟨i, interface, value.flip (decide (i = k))⟩] else [] : List (Handed K n)) =
        (if b then [⟨i, interface, value⟩] else []).map (Handed.mirror k) := by
    intro b interface value
    cases b <;> rfl
  have hbase : (p.mirror (decide (i = k))).base_command = p.base_command := by
    cases decide (i = k) <;> rfl
  have hposition : (p.mirror (decide (i = k))).position_commanded = p.position_commanded := by
    cases decide (i = k) <;> rfl
  have hvelocity : (j.mirror (decide (i = k))).command_velocity = j.command_velocity := by
    cases decide (i = k) <;> rfl
  have heffort : (j.mirror (decide (i = k))).command_effort = j.command_effort := by
    cases decide (i = k) <;> rfl
  unfold handed_on
  simp only [hcommand, hscale, hbase, hposition, hvelocity, heffort, hown, List.map_append]
  congr 1
  split <;> rfl

theorem exported_state_mirror (hp : p.Valid) (flip : Bool) (base : Interface → Dbl K)
    (interface : Interface) :
    exported_state (p.mirror flip) (fun interface => (base interface).flip flip) interface =
      exported_state p base interface := by
  cases flip with
  | false => rfl
  | true =>
    unfold exported_state
    show Dbl.scale (-p.direction) (if p.base_state interface then -base interface else .nan) = _
    split
    · exact Dbl.scale_neg_neg hp.direction_ne _
    · rfl

theorem exported_mirror (hp : p.Valid) (flip : Bool) (base : Interface → Dbl K) :
    (j.mirror flip).exported (p.mirror flip) (fun interface => (base interface).flip flip) =
      (j.exported p base).mirror flip := by
  have hstate := exported_state_mirror hp flip base
  simp only [Joint.exported, hstate]
  cases flip <;> rfl

end Parts

variable {K : Type} [Field K] [LinearOrder K] [IsStrictOrderedRing K] {n : Nat}
variable (c : Component K n) (env : Env) (k : Fin n)

/-- The component whose motor `k` is mounted the other way round. -/
def Component.mirror : Component K n where
  joint i := (c.joint i).mirror (decide (i = k))
  status_timeout := c.status_timeout
  brake_time := c.brake_time
  valid i := (c.valid i).mirror _
  can_ids i j h := by
    have hid : ∀ i, ((c.joint i).mirror (decide (i = k))).can_id = (c.joint i).can_id := by
      intro i
      cases decide (i = k) <;> rfl
    exact c.can_ids (((hid i).symm.trans h).trans (hid j))

/-- The status frame that the mirrored motor sends in place of `frame`: position and
current are negated, which excludes -32768. -/
structure MirrorFrame (frame frame' : RxFrame) : Prop where
  complete : frame'.complete = frame.complete
  can_id : frame'.can_id = frame.can_id
  can_dlc : frame'.can_dlc = frame.can_dlc
  position : int16 (frame'.data 0) (frame'.data 1) = -int16 (frame.data 0) (frame.data 1)
  current : int16 (frame'.data 4) (frame'.data 5) = -int16 (frame.data 4) (frame.data 5)
  temperature : frame'.data 6 = frame.data 6
  fault : frame'.data 7 = frame.data 7

/-- The frames of motor `k` are those of the mirrored motor; everything else is the same. -/
structure MirrorEnv (env' : Env) : Prop where
  clock : env'.clock = env.clock
  written : env'.written = env.written
  failed : ∀ b, (env'.batch b).failed = (env.batch b).failed
  frames : ∀ b, List.Forall₂ (fun frame frame' =>
      if frame.of (c.joint k) then MirrorFrame frame frame' else frame' = frame)
    (env.batch b).frames (env'.batch b).frames

/-- The upstream states of motor `k` are negated; the frames of the upstream plugin are
its own affair, and all other events are the same. -/
inductive MirrorEvent : Event K n → Event K n → Prop
  | read {upstream : ReturnType} {base : Fin n → Interface → Dbl K} :
      MirrorEvent (.read upstream base)
        (.read upstream fun i interface => (base i interface).flip (decide (i = k)))
  | write {period : K} {upstream : ReturnType} {frames frames' : List CanFrame} :
      MirrorEvent (.write period upstream frames) (.write period upstream frames')
  | set_command {i : Fin n} {position velocity effort : Dbl K} :
      MirrorEvent (.set_command i position velocity effort) (.set_command i position velocity effort)
  | same {e : Event K n} (h : ¬ HasData e) : MirrorEvent e e

/-- The joint frames are the same; the motor frame of `k` is reversed. -/
structure MirrorImage (m m' : Managed K n) : Prop where
  lifecycle : m'.lifecycle = m.lifecycle
  active : m'.system.active = m.system.active
  stopped : m'.system.stopped = m.system.stopped
  sent : own_frames m'.system.bus = own_frames m.system.bus
  state_position : ∀ i, (m'.system.joints i).state_position = (m.system.joints i).state_position
  state_velocity : ∀ i, (m'.system.joints i).state_velocity = (m.system.joints i).state_velocity
  state_effort : ∀ i, (m'.system.joints i).state_effort = (m.system.joints i).state_effort
  handed : m'.system.handed = m.system.handed.map (Handed.mirror k)

variable {c env k}

omit [Field K] [LinearOrder K] [IsStrictOrderedRing K] in
/-- The mirrored motor is heard in the mirror. -/
theorem MirrorFrame.hear {frame frame' : RxFrame} (h : MirrorFrame frame frame') (t : Nat)
    (heard : Bool) (j : Joint K) :
    (hear t frame' (j.mirror true, heard)).1 = (hear t frame (j, heard)).1.mirror true := by
  have hfault : frame'.fault_code = frame.fault_code := h.fault
  simp only [Safe.hear, Joint.mirror, h.position, h.current, h.temperature]
  rw [hfault]

omit [IsStrictOrderedRing K] in
theorem mirror_frames {frame frame' : RxFrame}
    (h : if frame.of (c.joint k) then MirrorFrame frame frame' else frame' = frame) :
    FrameTwins c (c.mirror k) (fun i j j' => j' = j.mirror (decide (i = k))) frame frame' := by
  intro i
  have hof : ∀ frame : RxFrame, frame.of ((c.mirror k).joint i) = frame.of (c.joint i) := by
    intro frame
    show frame.of ((c.joint i).mirror _) = _
    cases decide (i = k) <;> rfl
  rw [hof]
  by_cases hk : frame.of (c.joint k) = true
  · rw [if_pos hk] at h
    have hsame : frame'.of (c.joint i) = frame.of (c.joint i) := by
      simp only [RxFrame.of, h.complete, h.can_id, h.can_dlc]
    refine ⟨hsame, ?_⟩
    rintro hi t heard j j' rfl
    -- a frame is for one motor
    obtain rfl : i = k := by
      refine c.can_ids ?_
      simp only [RxFrame.of, Bool.and_eq_true, beq_iff_eq] at hi hk
      exact hi.2.trans hk.2.symm
    rw [decide_eq_true rfl]
    exact h.hear t heard j
  · rw [if_neg hk] at h
    subst h
    refine ⟨rfl, ?_⟩
    rintro hi t heard j j' rfl
    have hne : i ≠ k := fun he => hk (he ▸ hi)
    rw [decide_eq_false hne]
    rfl

theorem mirror_twins {env' : Env} (he : MirrorEnv c env k env') :
    Twins c (c.mirror k) env env' (fun i j j' => j' = j.mirror (decide (i = k)))
      (fun h h' => h' = h.mirror k) := by
  have hparam : ∀ {α : Type} (f : JointParams K → α),
      (∀ p : JointParams K, f (p.mirror true) = f p) →
      ∀ i, f ((c.mirror k).joint i) = f (c.joint i) := by
    intro α f hf i
    show f ((c.joint i).mirror (decide (i = k))) = _
    cases decide (i = k) with
    | false => rfl
    | true => exact hf _
  have hjoint : ∀ (f : Joint K → Joint K), (∀ flip j, f (j.mirror flip) = (f j).mirror flip) →
      ∀ {i : Fin n} {j j' : Joint K}, j' = j.mirror (decide (i = k)) →
      f j' = (f j).mirror (decide (i = k)) := by
    rintro f hf i j j' rfl
    exact hf _ j
  constructor
  case toSameSetting =>
    exact ⟨hparam _ fun _ => rfl, hparam _ fun _ => rfl, hparam _ fun _ => rfl,
      hparam _ fun _ => rfl, hparam _ fun _ => rfl, rfl, rfl, he.clock, he.written⟩
  case failed => exact he.failed
  case frames => exact fun b => (he.frames b).imp fun _ _ => mirror_frames
  case shows =>
    rintro i j j' rfl
    exact shows_mirror _
  case release =>
    exact fun hj r => hjoint (fun j => { j with releasing := r })
      (fun flip j => by cases flip <;> rfl) hj
  case excess =>
    exact fun hj o => hjoint (fun j => { j with over_effort := o })
      (fun flip j => by cases flip <;> rfl) hj
  case since =>
    exact fun hj t => hjoint (fun j => { j with over_effort_since := t })
      (fun flip j => by cases flip <;> rfl) hj
  case forget =>
    exact fun hj => hjoint Joint.forget (fun flip j => by cases flip <;> rfl) hj
  case target =>
    rintro i j j' rfl
    have hcommanded := hparam JointParams.position_commanded (fun _ => rfl) i
    have hmeasured : measured_position ((c.mirror k).joint i) (j.mirror (decide (i = k))) =
        measured_position (c.joint i) j := measured_mirror _
    rw [hcommanded, hmeasured]
    cases decide (i = k) <;> rfl
  case switched =>
    rintro starts stops i j j' active release_at rfl
    exact switched_mirror _ _ _ _ _ _
  case written_to =>
    rintro i j j' rfl dt t
    exact written_mirror (c.valid i) _ dt t
  case handed =>
    rintro i j j' rfl dt
    show List.Forall₂ _ _ (handed_on ((c.joint i).mirror _) i dt _)
    rw [handed_mirror (c.valid i)]
    exact List.forall₂_map_right_iff.mpr (List.forall₂_same.mpr fun _ _ => rfl)

theorem mirror_event {e e' : Event K n} (h : MirrorEvent k e e') :
    EventTwins c (c.mirror k) (fun i j j' => j' = j.mirror (decide (i = k))) e e' := by
  cases h with
  | read =>
    refine .read ?_
    rintro i j j' rfl
    exact exported_mirror (c.valid i) _ _
  | write => exact .write
  | set_command =>
    refine .set_command ?_
    rintro j j' rfl
    cases decide (_ = k) <;> rfl
  | same h => exact .same h

variable (c env k)

/-- Mirror-mounted motors behave the same in the joint frame: every run of the component
is one of the mirrored component, which hears the mirrored motor and reads its negated
upstream states. All callbacks return the same, the same frames are sent, and the joint
states are the same; what is handed on for the mirrored motor is negated. -/
theorem mirror_mounted {env' : Env} (he : MirrorEnv c env k env') {es es' : List (Event K n)}
    (hes : List.Forall₂ (MirrorEvent k) es es') {m : Managed K n} (hr : Run (next c env) {} es m) :
    ∃ m', Run (next (c.mirror k) env') {} es' m' ∧ MirrorImage k m m' ∧
      results (c.mirror k) env' {} es' = results c env {} es := by
  have hstart : Alike (fun i j j' => j' = j.mirror (decide (i = k)))
      (fun h h' : Handed K n => h' = h.mirror k) ({} : SafeSystem K n) {} {} {} := by
    refine ⟨rfl, rfl, rfl, rfl, rfl, rfl, fun i => ?_, ⟨[], [], rfl, rfl, rfl⟩,
      ⟨[], [], rfl, rfl, .nil⟩⟩
    cases decide (i = k) <;> rfl
  obtain ⟨m', hr', hlife, h, hresults⟩ := run_twins (mirror_twins he)
    (hes.imp fun _ _ => mirror_event) rfl hstart hr
  have hstates : ∀ {α : Type} (f : Joint K → α), (∀ flip j, f (Joint.mirror flip j) = f j) →
      ∀ i, f (m'.system.joints i) = f (m.system.joints i) := by
    intro α f hf i
    rw [h.joints i, hf]
  obtain ⟨added, added', hb, hb', hown⟩ := h.bus
  obtain ⟨handed, handed', hh, hh', hall⟩ := h.handed
  refine ⟨m', hr', ?_, hresults⟩
  constructor
  case lifecycle => exact hlife
  case active => exact h.active
  case stopped => exact h.stopped
  case sent => rw [hb, hb', List.nil_append, List.nil_append, hown]
  case state_position => exact hstates _ fun flip j => by cases flip <;> rfl
  case state_velocity => exact hstates _ fun flip j => by cases flip <;> rfl
  case state_effort => exact hstates _ fun flip j => by cases flip <;> rfl
  case handed =>
    rw [hh, hh', List.nil_append, List.nil_append]
    have hall : List.Forall₂ (fun a b => Handed.mirror k a = b) handed handed' :=
      hall.imp fun _ _ h => h.symm
    rw [← List.forall₂_eq_eq_eq]
    exact (List.forall₂_map_left_iff.mpr hall).imp (fun _ _ h => h) |>.flip.imp fun _ _ h => h.symm

/-- Every drain finds one frame of motor 1, with these bytes of position and current. -/
def turned (position current : UInt8 × UInt8) : Env where
  clock := (fault_at 0).clock
  written _ := true
  batch _ := ⟨[⟨true, 1, 8, fun k => match k.val with
    | 0 => position.1
    | 1 => position.2
    | 4 => current.1
    | 5 => current.2
    | _ => 0⟩], false⟩

/-- The joint of `gizmo`, read after its activation at 30 degrees, against the mirrored one
at -30 degrees. -/
theorem mirror_mounted_gizmo :
    ∃ m', Run (next (gizmo.mirror 0) (turned (254, 212) (255, 0))) {}
        [.on_configure true .SUCCESS, .on_activate .SUCCESS, .read .OK fun _ _ => .fin (-2)] m' ∧
      MirrorImage 0
        (perform gizmo (turned (1, 44) (1, 0)) (perform gizmo (turned (1, 44) (1, 0))
          (perform gizmo (turned (1, 44) (1, 0)) {} (.on_configure true .SUCCESS))
          (.on_activate .SUCCESS)) (.read .OK fun _ _ => .fin 2)) m' ∧
      results (gizmo.mirror 0) (turned (254, 212) (255, 0)) {}
          [.on_configure true .SUCCESS, .on_activate .SUCCESS, .read .OK fun _ _ => .fin (-2)] =
        results gizmo (turned (1, 44) (1, 0)) {}
          [.on_configure true .SUCCESS, .on_activate .SUCCESS, .read .OK fun _ _ => .fin 2] := by
  have henv : MirrorEnv gizmo (turned (1, 44) (1, 0)) 0 (turned (254, 212) (255, 0)) := by
    refine ⟨rfl, rfl, fun _ => rfl, fun b => .cons ?_ .nil⟩
    rw [if_pos (by decide)]
    exact ⟨rfl, rfl, rfl, by decide +kernel, by decide +kernel, rfl, rfl⟩
  have hevents : List.Forall₂ (MirrorEvent (K := ℚ) (0 : Fin 1))
      [.on_configure true .SUCCESS, .on_activate .SUCCESS, .read .OK fun _ _ => .fin 2]
      [.on_configure true .SUCCESS, .on_activate .SUCCESS, .read .OK fun _ _ => .fin (-2)] := by
    refine .cons (.same fun h => h) (.cons (.same fun h => h) (.cons ?_ .nil))
    have hbase : (fun (i : Fin 1) (_ : Interface) => (Dbl.fin (2 : ℚ)).flip (decide (i = 0))) =
        fun _ _ => .fin (-2) := by
      funext i interface
      rw [Subsingleton.elim i 0]
      rfl
    rw [← hbase]
    exact .read
  have hlegal : (perform gizmo (turned (1, 44) (1, 0))
      (perform gizmo (turned (1, 44) (1, 0)) {} (.on_configure true .SUCCESS))
      (.on_activate .SUCCESS)).lifecycle ≠ .destroyed := by decide +kernel
  exact mirror_mounted gizmo (turned (1, 44) (1, 0)) 0 henv hevents
    (((Run.single ⟨rfl, rfl⟩).snoc ⟨rfl, rfl⟩).snoc ⟨hlegal, rfl⟩)

end IotRobot.Safe
