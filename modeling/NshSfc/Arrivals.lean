import NshSfc.Demo
import NshSfc.Keys
import NshSfc.Library.Run
import NshSfc.Registry

namespace NshSfc.Arrivals

open Library Library.Script Python Database OpenFlow RowMatch App Packets Controller Sent Handler
  Keys Switch Operations Connections Registry

variable {db : Db} {es : List Event} {s : Int} {m : OFPMatch}

inductive Arrival : Event → Prop
  | features (dp : Datapath) : Arrival (.features dp)
  | stateChange (dp : Datapath) (state : Dispatcher) : Arrival (.stateChange dp state)
  | addFlow (flowId : Int) : Arrival (.op (.addFlow flowId))

def change : Event → Option Change
  | .stateChange dp state => some (dp, state)
  | _ => none

theorem run_app (db : Db) (es : List Event) :
    (run (start db) es).app = registry (es.filterMap change) := by
  induction es using List.reverseRecOn with
  | nil => rfl
  | append_singleton es e ih =>
    rw [run_concat, List.filterMap_append]
    cases e with
    | features dp =>
      have hnone : [Event.features dp].filterMap change = [] := rfl
      rw [hnone, List.append_nil]
      exact ih
    | stateChange dp st =>
      have hlast : [Event.stateChange dp st].filterMap change = [(dp, st)] := rfl
      rw [hlast, registry_concat, ← ih]
      rfl
    | op op =>
      have hnone : [Event.op op].filterMap change = [] := rfl
      rw [hnone, List.append_nil]
      exact ih

def Registered (es : List Event) (s : Int) : Prop :=
  s ∈ (registry (es.filterMap change)).datapaths.map Datapath.id

instance (es : List Event) (s : Int) : Decidable (Registered es s) :=
  inferInstanceAs (Decidable (s ∈ _))

/-- Adding the flow installs an entry with the fields of `m`: its match can be built and sent, and so
can its id. -/
def HasMatch (db : Db) (flowId : Int) (m : OFPMatch) : Prop :=
  0 ≤ flowId ∧ ∃ row ∈ db.selectFlows flowId, ∃ m', matchAdd (deriveTypes row) = .ok m' ∧ m'.packs ∧
    OFPMatch.fields m' = OFPMatch.fields m

def Reaches (db : Db) (m : OFPMatch) (s : Int) (before : List Event) (e : Event) : Prop :=
  Registered before s ∧ ∃ flowId, e = .op (.addFlow flowId) ∧ HasMatch db flowId m

theorem hasMatch_run {flowId : Int} :
    HasMatch (run (start db) es).db flowId m ↔ HasMatch db flowId m := by
  rw [HasMatch, Db.selectFlows, run_flows]
  rfl

section Add

variable {app : SfcApp} {flowId : Int}

theorem receive_add (hm : HasMatch db flowId m) (hs : s ∈ app.datapaths.map Datapath.id)
    (T : Network) :
    T.receive (apiAddFlow app db flowId).sent s (detectionKey m) = some (detectionInst flowId) := by
  obtain ⟨hnonneg, row, hrow, m', hm', hp, hfields⟩ := hm
  obtain ⟨dp, hdp, hid⟩ := List.mem_map.mp hs
  rw [apiAddFlow_eq hrow hm' hp hnonneg]
  refine receive_added (List.mem_map.mpr ⟨dp, hdp, rfl⟩) hid ?_ ?_ T
  · simp [FlowMod.toMod, detectionKey, hfields]
  · intro n hn _ _
    obtain ⟨dp', -, rfl⟩ := List.mem_map.mp hn
    simp [FlowMod.toMod, detectionKey, hfields]

theorem receive_other (h : ¬ (HasMatch db flowId m ∧ s ∈ app.datapaths.map Datapath.id))
    (T : Network) :
    T.receive (apiAddFlow app db flowId).sent s (detectionKey m) = T s (detectionKey m) := by
  apply receive_of_not_touches
  intro n hn hs ht
  obtain ⟨row, hrow, hrule⟩ := apiAddFlow_sent hn
  cases hrule with
  | @detection dp hdp m' hm' hp hid =>
    have hkey : (⟨0, 8, OFPMatch.fields m'⟩ : FlowKey) = detectionKey m := ht
    have hnonneg : 0 ≤ flowId := (Db.mem_selectFlows.mp hrow).2 ▸ hid
    exact h ⟨⟨hnonneg, row, hrow, m', hm', hp, congrArg Key.fields hkey⟩,
      List.mem_map.mpr ⟨dp, hdp, hs⟩⟩

theorem receive_features (T : Network) (dp : Datapath) (s : Int) (m : OFPMatch) :
    T.receive (switchFeaturesHandler dp).sent s (detectionKey m) = T s (detectionKey m) := by
  apply receive_of_not_touches
  intro n hn _ ht
  simp only [switchFeatures_sent, List.mem_cons, List.not_mem_nil, or_false] at hn
  rcases hn with rfl | rfl | rfl | rfl | rfl | rfl <;> cases congrArg Key.priority ht

end Add

theorem tables_of_reaches {g : Int} (h : Reaches db m s es (.op (.addFlow g))) :
    (run (start db) (es ++ [.op (.addFlow g)])).tables s (detectionKey m) =
      some (detectionInst g) := by
  obtain ⟨hs, g, heq, hm⟩ := h
  cases heq
  rw [run_concat, step_tables]
  apply receive_add (hasMatch_run.mpr hm)
  rwa [run_app]

theorem tables_of_not_reaches {e : Event} (he : Arrival e) (h : ¬ Reaches db m s es e) :
    (run (start db) (es ++ [e])).tables s (detectionKey m) =
      (run (start db) es).tables s (detectionKey m) := by
  rw [run_concat, step_tables]
  cases he with
  | features dp => exact receive_features _ dp s m
  | stateChange dp st => rfl
  | addFlow g =>
    apply receive_other
    intro ⟨hm, hs⟩
    rw [run_app] at hs
    exact h ⟨hs, g, rfl, hasMatch_run.mp hm⟩

def demoBefore : List Event :=
  [.features ⟨4, 0⟩, .stateChange ⟨4, 0⟩ .main, .op (.addFlow 1)]

def demoAfter : List Event :=
  [.op (.addFlow 1), .features ⟨4, 0⟩, .stateChange ⟨4, 0⟩ .main]

end NshSfc.Arrivals
