import NshSfc.Sent

namespace NshSfc.Switch

open Library Library.Script Python Database OpenFlow RowMatch App

/-- The flow tables that `switch_features_handler` leaves on a switch. -/
def defaultTable : SwitchTable :=
  FlowTable.empty.applyAll ((switchFeaturesHandler ⟨0, 0⟩).sent.map fun m ↦ m.2.toMod)

def defaultNetwork : Network := fun _ ↦ defaultTable

theorem switchFeatures_sent (dp : Datapath) : (switchFeaturesHandler dp).sent =
    [(dp, .add 0 10 matchRegistration (flowInstructions [] none (some 2))),
     (dp, .add 0 9 matchNsh (flowInstructions [] none (some 1))),
     (dp, .add 0 0 (.keywords []) (flowInstructions [] none (some 3))),
     (dp, .add 1 0 (.keywords []) (flowInstructions [] none (some 3))),
     (dp, .add 2 0 (.keywords []) (flowInstructions [.output .controller] none none)),
     (dp, .add 3 0 (.keywords []) (flowInstructions [.output .normal] none none))] := rfl

theorem switchFeatures_mods (dp : Datapath) :
    (switchFeaturesHandler dp).sent.map (fun m ↦ m.2.toMod) =
      (switchFeaturesHandler ⟨0, 0⟩).sent.map fun m ↦ m.2.toMod := rfl

def registrationKey : FlowKey := ⟨0, 10, OFPMatch.fields matchRegistration⟩

def nshKey : FlowKey := ⟨0, 9, OFPMatch.fields matchNsh⟩

def missKey (t : ℕ) : FlowKey := ⟨t, 0, ⊥⟩

inductive DefaultEntry : FlowKey → List Instruction → Prop
  | registration : DefaultEntry registrationKey [.applyActions [], .gotoTable 2]
  | nsh : DefaultEntry nshKey [.applyActions [], .gotoTable 1]
  | miss0 : DefaultEntry (missKey 0) [.applyActions [], .gotoTable 3]
  | miss1 : DefaultEntry (missKey 1) [.applyActions [], .gotoTable 3]
  | miss2 : DefaultEntry (missKey 2) [.applyActions [.output .controller]]
  | miss3 : DefaultEntry (missKey 3) [.applyActions [.output .normal]]

theorem defaultTable_iff {k : FlowKey} {i : List Instruction} :
    defaultTable k = some i ↔ DefaultEntry k i := by
  constructor
  · intro h
    rcases FlowTable.applyAll_eq_some h with h | ⟨h, -⟩
    · simp only [switchFeatures_sent, List.map_cons, List.map_nil, List.mem_cons, List.not_mem_nil,
        or_false, FlowMod.toMod, Mod.add.injEq] at h
      rcases h with ⟨rfl, rfl⟩ | ⟨rfl, rfl⟩ | ⟨rfl, rfl⟩ | ⟨rfl, rfl⟩ | ⟨rfl, rfl⟩ | ⟨rfl, rfl⟩
      · exact .registration
      · exact .nsh
      · exact .miss0
      · exact .miss1
      · exact .miss2
      · exact .miss3
    · cases h
  · intro h
    cases h <;> decide

def IsDefault (k : FlowKey) : Prop := k = registrationKey ∨ k = nshKey ∨ ∃ t, k = missKey t

theorem isDefault_of_defaultTable {k : FlowKey} {i : List Instruction}
    (h : defaultTable k = some i) : IsDefault k := by
  cases defaultTable_iff.mp h with
  | registration => exact .inl rfl
  | nsh => exact .inr (.inl rfl)
  | miss0 => exact .inr (.inr ⟨0, rfl⟩)
  | miss1 => exact .inr (.inr ⟨1, rfl⟩)
  | miss2 => exact .inr (.inr ⟨2, rfl⟩)
  | miss3 => exact .inr (.inr ⟨3, rfl⟩)

def keysOn (ms : List Message) (s : Int) : List FlowKey :=
  FlowTable.addedKeys ((switchFeaturesHandler ⟨0, 0⟩).sent.map fun m ↦ m.2.toMod) ++
    FlowTable.addedKeys (sentTo s (mods ms))

theorem receive_listed (ms : List Message) (s : Int) :
    (defaultNetwork.receive ms s).Listed (keysOn ms s) := by
  have hempty : (FlowTable.empty : SwitchTable).Listed [] := by
    intro k i h
    cases h
  exact (hempty.applyAll _).applyAll _

end NshSfc.Switch
