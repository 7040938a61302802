import NshSfc.Handler
import NshSfc.Library.Run

namespace NshSfc.Operations

open Library Library.Script Python Database OpenFlow RowMatch App Packets Controller Sent Handler

structure State where
  db : Db
  tables : Network

/-- The operations of the application; the number of a packet-in bounds its chain loop. -/
inductive Op
  | addFlow (flowId : Int)
  | packetIn (msg : PacketIn) (fuel : ℕ)
  | deleteFlow (flowId : Int)

def committed (db : Db) (r : Ctl Db) : Db :=
  match r.result with
  | .ok db' => db'
  | .error _ => db

def step (app : SfcApp) (σ : State) : Op → State
  | .addFlow flowId => { σ with tables := σ.tables.receive (apiAddFlow app σ.db flowId).sent }
  | .packetIn msg fuel =>
    { db := committed σ.db (packetInHandler fuel app σ.db msg)
      tables := σ.tables.receive (packetInHandler fuel app σ.db msg).sent }
  | .deleteFlow flowId => { σ with tables := σ.tables.receive (apiDeleteFlow app σ.db flowId).sent }

theorem committed_earlier (app : SfcApp) (db : Db) (msg : PacketIn) (fuel : ℕ) :
    Earlier db (committed db (packetInHandler fuel app db msg)) := by
  unfold committed
  split
  case h_1 db' hr =>
    obtain ⟨db₁, hreg, hr⟩ := bind_result_ok.mp hr
    obtain ⟨-, -, hr⟩ := bind_result_ok.mp hr
    rw [← Except.ok.inj hr]
    exact register_earlier hreg
  case h_2 => exact .refl db

@[simp] theorem step_flows (app : SfcApp) (σ : State) (op : Op) :
    (step app σ op).db.flows = σ.db.flows := by
  cases op with
  | addFlow flowId => rfl
  | packetIn msg fuel => exact (committed_earlier app σ.db msg fuel).flows
  | deleteFlow flowId => rfl

end NshSfc.Operations
