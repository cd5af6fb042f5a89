import IotRobot.Lib.Runs
import IotRobot.Web.Telemetry

/-!
# Runs of the browser controller

The ROS thread and the web thread call the methods of `RobotBridge` in any order. A run is
a sequence of such calls with clock readings that never go back.
-/

namespace IotRobot.Web

open Lib

set_option autoImplicit false

/-- A call of one of the bridge's methods. -/
inductive Op (K Client V : Type) where
  | on_range (side : Side) (range : Dbl K)
  | on_odom (linear angular : Dbl K)
  | on_battery (voltage : Dbl K)
  | on_person_status (data : String)
  | on_estop (engaged : Bool)
  | on_image
  | update_image_subscription
  | on_drive_timer
  | on_estop_timer
  | on_estop_startup
  | on_graph_timer (follower detector : Bool)
  | may_control (client : Client)
  | drive (client : Client) (linear_axis angular_axis speed : V)
  | release (client : Client) (disconnected : Bool)
  | set_estop (engaged : Bool)
  | aim_gizmo (client : Client) (yaw pitch : V)
  | set_mode (mode : Mode)
  | set_streaming (streaming : Bool)
  | snapshot

/-- A call and the reading of the monotonic clock that it takes. -/
structure Event (K Client V : Type) where
  now : K
  op : Op K Client V

/-- The bridge, and the latest clock reading. -/
structure Node (K Client : Type) where
  clock : K
  bridge : RobotBridge K Client

variable {K Client V : Type} [Field K] [LinearOrder K] [FloorRing K] [DecidableEq Client]
variable (c : Parameters K) (float : V → FloatResult K)

/-- The bridge after a call. -/
def perform (e : Event K Client V) (s : RobotBridge K Client) : RobotBridge K Client :=
  match e.op with
  | .on_range side range => s.on_range e.now side range
  | .on_odom linear angular => s.on_odom e.now linear angular
  | .on_battery voltage => s.on_battery e.now voltage
  | .on_person_status data => s.on_person_status e.now data
  | .on_estop engaged => s.on_estop e.now engaged
  | .on_image => s.on_image e.now
  | .update_image_subscription => s.update_image_subscription
  | .on_drive_timer => s.on_drive_timer c e.now
  | .on_estop_timer => s.on_estop_timer e.now
  | .on_estop_startup => s.on_estop_startup e.now
  | .on_graph_timer follower detector => s.on_graph_timer follower detector
  | .may_control client => (s.may_control e.now client).2
  | .drive client linear angular speed => (s.drive c float e.now client linear angular speed).2
  | .release client disconnected => s.release e.now client disconnected
  | .set_estop engaged => (s.set_estop e.now engaged).2
  | .aim_gizmo client yaw pitch => (s.aim_gizmo c float e.now client yaw pitch).2
  | .set_mode mode => s.set_mode c mode
  | .set_streaming streaming => s.set_streaming c streaming
  | .snapshot => (s.snapshot c e.now).2

/-- One call, at a reading that is not before the last one. -/
def next (m : Node K Client) (e : Event K Client V) (m' : Node K Client) : Prop :=
  m.clock ≤ e.now ∧ m' = ⟨e.now, perform c float e m.bridge⟩

/-- The node when `__init__` returns at `t`. -/
def start (t : K) : Node K Client := ⟨t, RobotBridge.init c t⟩

/-- The node after the calls `es`. -/
def after (m : Node K Client) (es : List (Event K Client V)) : Node K Client :=
  es.foldl (fun m e => ⟨e.now, perform c float e m.bridge⟩) m

/-- Calls with readings in order make a run. -/
theorem run_after (m : Node K Client) (es : List (Event K Client V))
    (h : (m.clock :: es.map Event.now).IsChain (· ≤ ·)) :
    Run (next c float) m es (after c float m es) := by
  induction es generalizing m with
  | nil => exact .nil
  | cons e es ih =>
    obtain ⟨hle, hrest⟩ := List.isChain_cons_cons.mp h
    exact (Run.single ⟨hle, rfl⟩).append (ih ⟨e.now, perform c float e m.bridge⟩ hrest)

theorem run_clock {es : List (Event K Client V)} {m m' : Node K Client}
    (h : Run (next c float) m es m') : m.clock ≤ m'.clock := by
  refine h.relates (fun m m' => m.clock ≤ m'.clock) (fun _ => le_refl _)
    (fun _ _ _ => le_trans) ?_
  rintro m m' e ⟨hclock, rfl⟩
  exact hclock

end IotRobot.Web
