import NshSfc.Operations
import NshSfc.Switch

namespace NshSfc.Connections

open Library Library.Script Python Database OpenFlow App Packets Controller Sent Operations

inductive Dispatcher
  | main
  | dead
deriving DecidableEq, Repr

/-- `_state_change_handler`. The dictionary is keyed by the id of the switch: a connection of a
switch that has an entry does not replace it. -/
def stateChangeHandler (app : SfcApp) (datapath : Datapath) : Dispatcher → SfcApp
  | .main =>
    if h : datapath.id ∈ app.datapaths.map Datapath.id then app
    else
      { datapaths := app.datapaths ++ [datapath]
        datapaths_id := by
          rw [List.map_append, List.nodup_append]
          refine ⟨app.datapaths_id, List.nodup_singleton _, ?_⟩
          intro a ha b hb hab
          obtain rfl : b = datapath.id := by simpa using hb
          exact h (hab ▸ ha) }
  | .dead =>
    { datapaths := app.datapaths.filter fun dp ↦ dp.id ≠ datapath.id
      datapaths_id := app.datapaths_id.sublist (List.filter_sublist.map _) }

section StateChange

variable {app : SfcApp} {datapath dp : Datapath}

theorem mem_main : dp ∈ (stateChangeHandler app datapath .main).datapaths ↔
    dp ∈ app.datapaths ∨ (dp = datapath ∧ datapath.id ∉ app.datapaths.map Datapath.id) := by
  by_cases h : datapath.id ∈ app.datapaths.map Datapath.id
  · rw [stateChangeHandler, dif_pos h]
    exact ⟨.inl, fun hdp ↦ hdp.resolve_right fun h' ↦ h'.2 h⟩
  · rw [stateChangeHandler, dif_neg h, List.mem_append, List.mem_singleton]
    exact ⟨fun hdp ↦ hdp.imp_right fun h' ↦ ⟨h', h⟩, fun hdp ↦ hdp.imp_right And.left⟩

theorem mem_dead : dp ∈ (stateChangeHandler app datapath .dead).datapaths ↔
    dp ∈ app.datapaths ∧ dp.id ≠ datapath.id := by
  simp [stateChangeHandler]

end StateChange

structure State where
  app : SfcApp
  db : Db
  tables : Network

inductive Event
  | features (datapath : Datapath)
  | stateChange (datapath : Datapath) (state : Dispatcher)
  | op (op : Op)

def Event.sent (app : SfcApp) (db : Db) : Event → List Message
  | .features datapath => (switchFeaturesHandler datapath).sent
  | .stateChange _ _ => []
  | .op (.addFlow flowId) => (apiAddFlow app db flowId).sent
  | .op (.packetIn msg fuel) => (packetInHandler fuel app db msg).sent
  | .op (.deleteFlow flowId) => (apiDeleteFlow app db flowId).sent

def step (σ : State) : Event → State
  | .features datapath =>
    { σ with tables := σ.tables.receive (switchFeaturesHandler datapath).sent }
  | .stateChange datapath state => { σ with app := stateChangeHandler σ.app datapath state }
  | .op op =>
    { σ with
      db := (Operations.step σ.app ⟨σ.db, σ.tables⟩ op).db
      tables := (Operations.step σ.app ⟨σ.db, σ.tables⟩ op).tables }

def start (db : Db) : State := ⟨⟨[], List.nodup_nil⟩, db, fun _ ↦ FlowTable.empty⟩

def run (σ : State) (es : List Event) : State := es.foldl step σ

theorem run_concat (σ : State) (es : List Event) (e : Event) :
    run σ (es ++ [e]) = step (run σ es) e := by
  simp [run]

theorem step_tables (σ : State) (e : Event) :
    (step σ e).tables = σ.tables.receive (e.sent σ.app σ.db) := by
  cases e with
  | features dp => rfl
  | stateChange dp st => rfl
  | op op => cases op <;> rfl

theorem run_flows (db : Db) (es : List Event) : (run (start db) es).db.flows = db.flows := by
  induction es using List.reverseRecOn with
  | nil => rfl
  | append_singleton es e ih =>
    rw [run_concat]
    cases e with
    | features dp => exact ih
    | stateChange dp st => exact ih
    | op op => exact (step_flows _ _ op).trans ih

end NshSfc.Connections
