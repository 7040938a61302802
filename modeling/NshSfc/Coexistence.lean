import NshSfc.Demo
import NshSfc.Keys
import NshSfc.Operations

namespace NshSfc.Coexistence

open Library Library.Script Python Database OpenFlow RowMatch App Packets Controller Sent Handler
  Keys Switch Operations

variable {app : SfcApp} {db : Db} {T : Network} {s : Int} {row : FlowRow}

inductive SteeringEntry (row : FlowRow) : FlowKey → List Instruction → Prop
  | source {p : Int} {m : OFPMatch} (hm : matchEntryPoint p row = .ok m) {spi : Int}
      (hspi : row.serviceId = some spi) (si : Int) (loc ethSrc : String) :
      SteeringEntry row ⟨0, 8, OFPMatch.fields m⟩
        (flowInstructions (encapActions spi si loc ethSrc) none (some 3))
  | middle {p : Option Int} {m : OFPMatch} (hm : matchMiddle p row = .ok m) {spi : Int}
      (hspi : row.serviceId = some spi) (si : Int) (loc ethSrc : String) :
      SteeringEntry row ⟨0, 6, OFPMatch.fields m⟩
        (flowInstructions (encapActions spi si loc ethSrc) (some row.id) (some 3))

def Steers (T : Network) (s : Int) (row : FlowRow) : Prop :=
  ∃ k i, T s k = some i ∧ SteeringEntry row k i

def Detects (T : Network) (s : Int) (row : FlowRow) : Prop :=
  ∃ m, matchAdd row = .ok m ∧ T s ⟨0, 8, OFPMatch.fields m⟩ = some (detectionInst row.id)

def Apart (db : Db) (T : Network) : Prop :=
  ∀ row ∈ db.flows, ∀ s, ¬ (Detects T s (deriveTypes row) ∧ Steers T s (deriveTypes row))

theorem SteeringEntry.ne_detection {k : FlowKey} {i : List Instruction} (h : SteeringEntry row k i)
    (id : Int) : i ≠ detectionInst id := by
  rintro rfl
  generalize hi : detectionInst id = i at h
  cases h <;> exact absurd (flowInstructions_actions_inj hi) (by simp [encapActions])

theorem rowOf_mem {flowId : ℕ} (h : RowOf db flowId row) :
    ∃ r ∈ db.flows, deriveTypes r = row := by
  obtain ⟨r, hr, rfl⟩ : ∃ r, (db.selectFlows flowId).head? = some r ∧ deriveTypes r = row := by
    simpa [RowOf] using h
  exact ⟨r, (Db.mem_selectFlows.mp (List.mem_of_head? hr)).1, rfl⟩

theorem row_eq_of_id {r r' : FlowRow} (h : r ∈ db.flows) (h' : r' ∈ db.flows) (hid : r.id = r'.id) :
    r = r' := List.inj_on_of_nodup_map db.flows_id h h' hid

theorem steering_installed {rowA rowB : FlowRow} {msg : PacketIn} {mA mB : OFPMatch}
    (hA : matchCommon rowA = .ok mA) (hB : matchCommon rowB = .ok mB) {n : Message}
    (hn : InstallRule app msg rowA n) {k : FlowKey} {i : List Instruction}
    (hadd : n.2.toMod = .add k i) (h : SteeringEntry rowB k i) :
    OFPMatch.fields mA = OFPMatch.fields mB ∨ rowA.id = rowB.id := by
  cases hn with
  | @source e he spi hspi si loc =>
    have hkey := (Mod.add.inj hadd).1
    cases h with
    | @source p m hm =>
      have hf : OFPMatch.fields e = OFPMatch.fields m := congrArg Key.fields hkey
      rw [matchEntryPoint_fields hA he, matchEntryPoint_fields hB hm] at hf
      exact .inl (Match.set_injective (matchCommon_inPort hA) (matchCommon_inPort hB) hf)
    | middle => cases congrArg Key.priority hkey
  | chain hc =>
    cases hc with
    | middle =>
      cases h with
      | source => cases congrArg Key.priority (Mod.add.inj hadd).1
      | middle => exact .inr (flowInstructions_metadata_inj (Mod.add.inj hadd).2)
    | aware => cases h <;> cases congrArg Key.table (Mod.add.inj hadd).1
    | delivery => cases h <;> cases congrArg Key.table (Mod.add.inj hadd).1
    | last => cases h <;> cases congrArg Key.table (Mod.add.inj hadd).1

theorem apart_packetIn {msg : PacketIn} (hdp : msg.datapath ∈ app.datapaths) (h : Apart db T)
    (fuel : ℕ) : Apart db (T.receive (packetInHandler fuel app db msg).sent) := by
  rintro row hrow s ⟨⟨m, hm, hdet⟩, k, i, hk, hsteer⟩
  rcases handler_deletes_first app db msg fuel with hnil | ⟨flowId, rowA, mA, rest, -, hA, hsent, hrest⟩
  · rw [hnil] at hdet hk
    exact h row hrow s ⟨⟨m, hm, hdet⟩, k, i, hk, hsteer⟩
  rw [hsent] at hdet hk
  obtain ⟨hdet, hkept⟩ := (receive_eq_some hdet).resolve_left fun ⟨n, hn, _, hadd⟩ ↦
    InstallRule.ne_detection (hrest n (mem_of_add hn hadd)) hadd _ rfl
  rcases receive_eq_some hk with ⟨n, hn, hs, hadd⟩ | ⟨hk, -⟩
  swap
  · exact h row hrow s ⟨⟨m, hm, hdet⟩, k, i, hk, hsteer⟩
  -- the entry is new, so the deletions have reached the detection entry
  have hn := hrest n (mem_of_add hn hadd)
  have heq : OFPMatch.fields mA = OFPMatch.fields m := by
    rcases steering_installed hA.common hm hn hadd hsteer with heq | hid
    · exact heq
    · obtain ⟨r, hr, rfl⟩ := rowOf_mem hA.rowOf
      obtain rfl := row_eq_of_id hr hrow hid
      rw [Except.ok.inj (hA.common.symm.trans hm)]
  refine hkept (n.1, .delete 0 mA) ?_ hs ⟨rfl, heq.le⟩
  exact List.mem_append_left _ (mem_deletions.mpr ⟨n.1, InstallRule.datapath_mem hn hdp, rfl⟩)

theorem apart_addFlow {flowId : Int} (h : Apart db T)
    (hquiet : ∀ row ∈ db.selectFlows flowId, ∀ s, ¬ Steers T s (deriveTypes row)) :
    Apart db (T.receive (apiAddFlow app db flowId).sent) := by
  rintro row hrow s ⟨⟨m, hm, hdet⟩, k, i, hk, hsteer⟩
  have hk : T s k = some i := by
    rcases receive_eq_some hk with ⟨n, hn, -, hadd⟩ | ⟨hk, -⟩
    · obtain ⟨r, -, hrule⟩ := apiAddFlow_sent hn
      cases hrule
      exact absurd (Mod.add.inj hadd).2.symm (hsteer.ne_detection _)
    · exact hk
  rcases receive_eq_some hdet with ⟨n, hn, -, hadd⟩ | ⟨hdet, -⟩
  · obtain ⟨r, hr, hrule⟩ := apiAddFlow_sent hn
    cases hrule
    have hid : r.id = row.id := flowInstructions_metadata_inj (Mod.add.inj hadd).2
    obtain rfl := row_eq_of_id (Db.mem_selectFlows.mp hr).1 hrow hid
    exact hquiet r hr s ⟨k, i, hk, hsteer⟩
  · exact h row hrow s ⟨⟨m, hm, hdet⟩, k, i, hk, hsteer⟩

theorem apart_deleteFlow (h : Apart db T) (flowId : Int) :
    Apart db (T.receive (apiDeleteFlow app db flowId).sent) := by
  have hkeep : ∀ {s k i}, T.receive (apiDeleteFlow app db flowId).sent s k = some i → T s k = some i := by
    intro s k i hk
    rcases receive_eq_some hk with ⟨n, hn, -, hadd⟩ | ⟨hk, -⟩
    · obtain ⟨r, -, hrule⟩ := apiDeleteFlow_sent hn
      cases hrule <;> cases hadd
    · exact hk
  rintro row hrow s ⟨⟨m, hm, hdet⟩, k, i, hk, hsteer⟩
  exact h row hrow s ⟨⟨m, hm, hkeep hdet⟩, k, i, hkeep hk, hsteer⟩

theorem apart_default : Apart db defaultNetwork := by
  rintro row - s ⟨⟨m, hm, hdet⟩, -⟩
  exact (detection_keyOf hm 0).not_isDefault (isDefault_of_defaultTable hdet)

/-- `api_add_flow` is only called for a flow that no switch steers, and packet-ins come from
connected switches. -/
inductive Careful (app : SfcApp) (σ : State) : Op → Prop
  | addFlow {flowId : Int}
      (h : ∀ row ∈ σ.db.selectFlows flowId, ∀ s, ¬ Steers σ.tables s (deriveTypes row)) :
      Careful app σ (.addFlow flowId)
  | packetIn {msg : PacketIn} (hdp : msg.datapath ∈ app.datapaths) (fuel : ℕ) :
      Careful app σ (.packetIn msg fuel)
  | deleteFlow (flowId : Int) : Careful app σ (.deleteFlow flowId)

def CarefulStep (app : SfcApp) (σ : State) (op : Op) (σ' : State) : Prop :=
  Careful app σ op ∧ σ' = step app σ op

theorem careful_apart {σ σ' : State} {op : Op} (h : CarefulStep app σ op σ')
    (hσ : Apart σ.db σ.tables) : Apart σ'.db σ'.tables := by
  obtain ⟨hop, rfl⟩ := h
  suffices hT : Apart σ.db (step app σ op).tables by
    simpa only [Apart, step_flows] using hT
  cases hop with
  | addFlow h => exact apart_addFlow hσ h
  | packetIn hdp fuel => exact apart_packetIn hdp hσ fuel
  | deleteFlow flowId => exact apart_deleteFlow hσ flowId

/-- In every state that such operations reach, no switch both detects and steers a flow. -/
theorem detection_and_steering_apart {σ : State} {ops : List Op}
    (h : Run (CarefulStep app) ⟨db, defaultNetwork⟩ ops σ) : Apart σ.db σ.tables :=
  h.invariant _ (fun _ _ _ hσ hst ↦ careful_apart hst hσ) apart_default

theorem detection_and_steering_apart_demo :
    Apart Demo.db ((defaultNetwork.receive (apiAddFlow Demo.app Demo.db 1).sent).receive
      (packetInHandler 2 Demo.app Demo.db Demo.packetIn).sent) := by
  have hquiet : ∀ row s, ¬ Steers defaultNetwork s row := by
    rintro row s ⟨k, i, hk, hsteer⟩
    have hdefault := isDefault_of_defaultTable hk
    cases hsteer with
    | source => rcases hdefault with h | h | ⟨t, h⟩ <;> cases congrArg Key.priority h
    | middle => rcases hdefault with h | h | ⟨t, h⟩ <;> cases congrArg Key.priority h
  have hadd : Careful Demo.app ⟨Demo.db, defaultNetwork⟩ (.addFlow 1) := .addFlow fun row _ s ↦ hquiet _ s
  have hin : ∀ σ, Careful Demo.app σ (.packetIn Demo.packetIn 2) := fun σ ↦ .packetIn (by decide) 2
  exact detection_and_steering_apart (.cons ⟨hadd, rfl⟩ (.one ⟨hin _, rfl⟩))

/-- Adding the active flow once more puts its detection entry next to its source entry. -/
theorem demo_added_twice :
    let T := ((defaultNetwork.receive (apiAddFlow Demo.app Demo.db 1).sent).receive
      (packetInHandler 2 Demo.app Demo.db Demo.packetIn).sent).receive
        (apiAddFlow Demo.app Demo.db 1).sent
    Detects T 4 (deriveTypes Demo.flow1) ∧ Steers T 4 (deriveTypes Demo.flow1) := by
  refine ⟨⟨Demo.flow1Match, Demo.flow1_common, by decide +kernel⟩, ?_⟩
  have hsource : SteeringEntry (deriveTypes Demo.flow1) Demo.flow1Source Demo.flow1SourceInst :=
    .source (p := 1) (flowMatch_ok.mpr ⟨0x0A000004, 0x0A000005, by decide, by decide, by decide⟩) rfl _ _ _
  exact ⟨_, _, by decide +kernel, hsource⟩

end NshSfc.Coexistence
