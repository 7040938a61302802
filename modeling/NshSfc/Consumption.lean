import NshSfc.Demo
import NshSfc.Operations
import NshSfc.Switch

namespace NshSfc.Consumption

open Library Library.Script Python Database OpenFlow RowMatch App Packets Controller Sent Handler
  Switch Operations

variable {app : SfcApp} {f : FlowRow} {σ σ' : State} {m : OFPMatch}

inductive Event
  | op (o : Op)
  | edit (db : Db)

inductive Step (app : SfcApp) (f : FlowRow) : State → Event → State → Prop
  | op (σ : State) (o : Op) : Step app f σ (.op o) (step app σ o)
  | edit (σ : State) (db : Db) (h : f ∈ db.flows) : Step app f σ (.edit db) { σ with db }

def OnFlow (f : FlowRow) : Op → Prop
  | .addFlow flowId => flowId = f.id
  | .packetIn msg _ => msg.tableId = 2 ∧ ∃ flowId : ℕ, msg.metadata = some flowId ∧ flowId = f.id
  | .deleteFlow flowId => flowId = f.id

/-- A packet-in or a deletion of the flow that gets past the construction of the flow's match. A
packet-in builds it after the registration branch. -/
inductive PastMatches (f : FlowRow) (db : Db) : Op → Prop
  | packetIn {msg : PacketIn} {fuel : ℕ} (hon : OnFlow f (.packetIn msg fuel)) {db' : Db}
      (hreg : (register db msg).result = .ok db') {m : OFPMatch}
      (hm : matchCommon (deriveTypes f) = .ok m) : PastMatches f db (.packetIn msg fuel)
  | deleteFlow {m : OFPMatch} (hm : matchDel (deriveTypes f) = .ok m) :
      PastMatches f db (.deleteFlow f.id)

/-- The flow can have a detection entry that writes its id. -/
def Detectable (f : FlowRow) : Prop :=
  0 < f.id ∧ ∃ m, matchAdd (deriveTypes f) = .ok m ∧ m.packs

/-- The operation gets to all switches that may have a detection entry of the flow. -/
def Sweeps (app : SfcApp) (f : FlowRow) : Op → Prop
  | .deleteFlow _ => f.serviceId.isSome ∨ app.datapaths.length ≤ 1 ∨ ¬ Detectable f
  | _ => True

def Detecting (f : FlowRow) (i : List Instruction) : Prop :=
  (∃ mask, .writeMetadata f.id mask ∈ i) ∧ .gotoTable 2 ∈ i

def Consumed (f : FlowRow) (T : Network) : Prop :=
  ∀ s k i, T s k = some i → k.table = 0 → ¬ Detecting f i

theorem detecting_flowInstructions {as : List Action} {md : Option Int} {g : Option ℕ}
    (h : Detecting f (flowInstructions as md g)) : md = some f.id ∧ g = some 2 ∧ f.id ≠ 0 := by
  obtain ⟨⟨mask, hmd⟩, hgoto⟩ := h
  rcases g with _ | _ | t
  · simp [flowInstructions] at hmd
  · simp [flowInstructions] at hmd
  · rcases md with _ | n
    · simp [flowInstructions] at hmd
    · by_cases hn : n = 0
      · simp [flowInstructions, hn] at hmd
      · simp_all [flowInstructions]

theorem not_detecting_of_default {k : FlowKey} {i : List Instruction} (h : DefaultEntry k i) :
    ¬ Detecting f i := by
  rintro ⟨⟨mask, hmd⟩, -⟩
  cases h <;> simp at hmd

def sent (app : SfcApp) (db : Db) : Op → List Message
  | .addFlow flowId => (apiAddFlow app db flowId).sent
  | .packetIn msg fuel => (packetInHandler fuel app db msg).sent
  | .deleteFlow flowId => (apiDeleteFlow app db flowId).sent

theorem step_tables (app : SfcApp) (σ : State) (o : Op) :
    (step app σ o).tables = σ.tables.receive (sent app σ.db o) := by cases o <;> rfl

theorem detecting_sent {db : Db} (hf : f ∈ db.flows) {o : Op} {n : Message} (hn : n ∈ sent app db o)
    {k : FlowKey} {i : List Instruction} (hadd : n.2.toMod = .add k i) (hi : Detecting f i) :
    o = .addFlow f.id ∧ n.1 ∈ app.datapaths ∧ 0 < f.id ∧
      ∃ m, matchAdd (deriveTypes f) = .ok m ∧ m.packs ∧ k = ⟨0, 8, OFPMatch.fields m⟩ := by
  cases o with
  | addFlow flowId =>
    obtain ⟨r, hr, hrule⟩ := apiAddFlow_sent hn
    obtain ⟨hr, hrid⟩ := Db.mem_selectFlows.mp hr
    cases hrule with
    | @detection dp hdp m hm hp hnonneg =>
      obtain ⟨rfl, rfl⟩ := Mod.add.inj hadd
      obtain ⟨hid, -, hne⟩ := detecting_flowInstructions hi
      have hid : r.id = f.id := by simpa using hid
      obtain rfl : r = f := List.inj_on_of_nodup_map db.flows_id hr hf hid
      have hnonneg : 0 ≤ r.id := hnonneg
      exact ⟨by rw [hrid], hdp, by omega, m, hm, hp, rfl⟩
  | packetIn msg fuel =>
    obtain ⟨flowId, row, m, -, -, hrule⟩ := handler_installs hn hadd
    cases hrule with
    | source hm hspi si loc =>
      obtain ⟨-, rfl⟩ := Mod.add.inj hadd
      cases (detecting_flowInstructions hi).1
    | chain hc =>
      cases hc with
      | aware | middle | delivery | last =>
        obtain ⟨-, rfl⟩ := Mod.add.inj hadd
        cases (detecting_flowInstructions hi).2.1
  | deleteFlow flowId =>
    obtain ⟨r, -, hrule⟩ := apiDeleteFlow_sent hn
    cases hrule <;> cases hadd

/-- What detects the flow is its detection entry, and only connected switches have it. -/
structure Inv (app : SfcApp) (f : FlowRow) (σ : State) : Prop where
  row : f ∈ σ.db.flows
  entry : ∀ s k i, σ.tables s k = some i → Detecting f i → s ∈ app.datapaths.map Datapath.id ∧
    0 < f.id ∧ ∃ m, matchAdd (deriveTypes f) = .ok m ∧ m.packs ∧ k = ⟨0, 8, OFPMatch.fields m⟩

theorem inv_start {db : Db} (hf : f ∈ db.flows) : Inv app f ⟨db, defaultNetwork⟩ where
  row := hf
  entry := fun _ _ _ hk hi ↦ absurd hi (not_detecting_of_default (defaultTable_iff.mp hk))

theorem Inv.step {e : Event} (h : Inv app f σ) (hst : Step app f σ e σ') : Inv app f σ' := by
  cases hst with
  | op o =>
    refine ⟨by rw [step_flows]; exact h.row, fun s k i hk hi ↦ ?_⟩
    rw [step_tables] at hk
    rcases receive_eq_some hk with ⟨n, hn, rfl, hadd⟩ | ⟨hk, -⟩
    · obtain ⟨-, hdp, hpos, hm⟩ := detecting_sent h.row hn hadd hi
      exact ⟨List.mem_map.mpr ⟨n.1, hdp, rfl⟩, hpos, hm⟩
    · exact h.entry s k i hk hi
  | edit db hf => exact ⟨hf, h.entry⟩

theorem deletion_without_service {db : Db} {dp : Datapath} {dps : List Datapath} (hf : f ∈ db.flows)
    (hm : matchDel (deriveTypes f) = .ok m) (hp : m.packs) (hspi : f.serviceId = none) (hdps : app.datapaths = dp :: dps) :
    apiDeleteFlow app db f.id = ⟨[(dp, .delete 0 m)], .error (.raised .typeError)⟩ := by
  have hbody : deleteEntries (deriveTypes f) dp =
      ⟨[(dp, .delete 0 m)], .error (.raised .typeError)⟩ := by
    simp only [deleteEntries, hm, deriveTypes_serviceId, hspi, intOfColumn, py_ok, py_error,
      Script.pure_bind, delFlow_of_packs hp]
    rfl
  simp only [apiDeleteFlow, Db.selectFlows_eq_singleton hf, hdps, forEach_cons, hbody]
  rfl

theorem PastMatches.delete_sent {db : Db} {o : Op} (h : PastMatches f db o) (hs : Sweeps app f o)
    (hf : f ∈ db.flows) (hpos : 0 < f.id) (hm : matchAdd (deriveTypes f) = .ok m) (hp : m.packs)
    {dp : Datapath} (hdp : dp ∈ app.datapaths) : (dp, .delete 0 m) ∈ sent app db o := by
  cases h with
  | @packetIn msg fuel hon db' hreg m' hm' =>
    obtain ⟨htable, flowId, hid, hfid⟩ := hon
    obtain ⟨entry, hentry⟩ := flowMatch_ok_of_ok hm
      ((.inPort, some (.int msg.inPort)) :: ethFields (deriveTypes f))
    have hsel : db'.selectFlows flowId = [f] := by
      rw [(register_earlier hreg).selectFlows, hfid]
      exact Db.selectFlows_eq_singleton hf
    rw [sent, handler_sent_of_registered hreg,
      activate_table2 hid htable (by rw [hsel]; rfl) hentry hm hp]
    exact List.mem_append_left _ (List.mem_map.mpr ⟨dp, hdp, rfl⟩)
  | deleteFlow =>
    cases hspi : f.serviceId with
    | some spi =>
      rw [sent, apiDeleteFlow_eq (Db.mem_selectFlows.mpr ⟨hf, rfl⟩) hm hp hspi]
      exact List.mem_flatMap.mpr ⟨dp, hdp, List.mem_cons_self⟩
    | none =>
      rcases hs with hsome | hone | hnot
      · simp [hspi] at hsome
      · match hall : app.datapaths with
        | [] => simp [hall] at hdp
        | [d] =>
          obtain rfl : dp = d := by simpa [hall] using hdp
          rw [sent, deletion_without_service hf hm hp hspi hall]
          exact List.mem_cons_self
        | _ :: _ :: _ => simp [hall] at hone
      · exact absurd ⟨hpos, m, hm, hp⟩ hnot

theorem PastMatches.not_add {db : Db} (h : PastMatches f db (.addFlow f.id)) : False := by cases h

theorem PastMatches.consumed {o : Op} (h : PastMatches f σ.db o) (hs : Sweeps app f o)
    (hσ : Inv app f σ) : Consumed f (step app σ o).tables := by
  intro s k i hk _ hi
  rw [step_tables] at hk
  rcases receive_eq_some hk with ⟨n, hn, -, hadd⟩ | ⟨hk, hkept⟩
  · obtain ⟨rfl, -, -⟩ := detecting_sent hσ.row hn hadd hi
    exact h.not_add
  · obtain ⟨hmem, hpos, m, hm, hp, rfl⟩ := hσ.entry s k i hk hi
    obtain ⟨dp, hdp, hid⟩ := List.mem_map.mp hmem
    exact hkept _ (h.delete_sent hs hσ.row hpos hm hp hdp) hid ⟨rfl, le_rfl⟩

theorem consumed_step {e : Event} (hst : Step app f σ e σ') (hσ : Inv app f σ)
    (hoff : ∀ o, e = .op o → ¬ OnFlow f o) (h : Consumed f σ.tables) : Consumed f σ'.tables := by
  cases hst with
  | op o =>
    intro s k i hk ht hi
    rw [step_tables] at hk
    rcases receive_eq_some hk with ⟨n, hn, -, hadd⟩ | ⟨hk, -⟩
    · obtain ⟨rfl, -, -⟩ := detecting_sent hσ.row hn hadd hi
      exact hoff _ rfl rfl
    · exact h s k i hk ht hi
  | edit db hf => exact h

/-- In every run in which `o` is the latest operation on the flow and gets past match construction, no
switch has an entry that detects the flow. -/
def Consumes (app : SfcApp) (f : FlowRow) (db : Db) (o : Op) : Prop :=
  ∀ before after σ₁ σ₂, Run (Step app f) ⟨db, defaultNetwork⟩ before σ₁ → PastMatches f σ₁.db o →
    Run (Step app f) (step app σ₁ o) after σ₂ → (∀ o', .op o' ∈ after → ¬ OnFlow f o') →
    Consumed f σ₂.tables

theorem consumes_of_sweeps {db : Db} (hf : f ∈ db.flows) {o : Op} (hs : Sweeps app f o) :
    Consumes app f db o := by
  intro before after σ₁ σ₂ hbefore ho hafter hlatest
  have hinv : Inv app f σ₁ := hbefore.invariant _ (fun _ _ _ h hst ↦ h.step hst) (inv_start hf)
  have hinv' : Inv app f (step app σ₁ o) := hinv.step (.op σ₁ o)
  have hrun := hafter.restrict (P := fun e ↦ ∀ o', e = .op o' → ¬ OnFlow f o') <| by
    rintro e he o' rfl
    exact hlatest o' he
  refine (hrun.invariant (fun σ ↦ Inv app f σ ∧ Consumed f σ.tables) ?_
    ⟨hinv', ho.consumed hs hinv⟩).2
  rintro s e t ⟨hs, hc⟩ ⟨hst, hoff⟩
  exact ⟨hs.step hst, consumed_step hst hs hoff hc⟩

section LeftBehind

variable {db : Db} {dp dp' : Datapath} {dps : List Datapath}

theorem detecting_detectionInst (h0 : f.id ≠ 0) : Detecting f (detectionInst f.id) := by
  constructor
  · exact ⟨0xffffffff, by simp [detectionInst, flowInstructions, h0]⟩
  · simp [detectionInst, flowInstructions]

theorem left_behind (hf : f ∈ db.flows) (hdetect : Detectable f) (hspi : f.serviceId = none)
    (hdps : app.datapaths = dp :: dp' :: dps) :
    ¬ Consumed f (step app (step app ⟨db, defaultNetwork⟩ (.addFlow f.id)) (.deleteFlow f.id)).tables := by
  obtain ⟨hpos, m, hm, hp⟩ := hdetect
  have hadd : apiAddFlow app db f.id = _ :=
    apiAddFlow_eq (Db.mem_selectFlows.mpr ⟨hf, rfl⟩) hm hp hpos.le
  have hadded : (step app ⟨db, defaultNetwork⟩ (.addFlow f.id)).tables dp'.id
      ⟨0, 8, OFPMatch.fields m⟩ = some (detectionInst f.id) := by
    rw [step_tables, sent, hadd]
    refine receive_added (n := (dp', .add 0 8 m (detectionInst f.id))) ?_ rfl rfl ?_ _
    · exact List.mem_map.mpr ⟨dp', by simp [hdps], rfl⟩
    · intro n hn _ _
      obtain ⟨d, -, rfl⟩ := List.mem_map.mp hn
      rfl
  have hne : dp.id ≠ dp'.id := by
    have hnodup := app.datapaths_id
    rw [hdps, List.map_cons, List.map_cons, List.nodup_cons] at hnodup
    exact fun h ↦ hnodup.1 (by simp [h])
  have hkept : (step app (step app ⟨db, defaultNetwork⟩ (.addFlow f.id)) (.deleteFlow f.id)).tables
      dp'.id ⟨0, 8, OFPMatch.fields m⟩ = some (detectionInst f.id) := by
    rw [step_tables, ← hadded, sent]
    have hdelete : apiDeleteFlow app db f.id = ⟨[(dp, .delete 0 m)], .error (.raised .typeError)⟩ :=
      deletion_without_service hf hm hp hspi hdps
    have hdb : (step app ⟨db, defaultNetwork⟩ (.addFlow f.id)).db = db := rfl
    rw [hdb, hdelete]
    refine receive_of_not_touches (fun n hn hs ↦ ?_) _
    obtain rfl := List.mem_singleton.mp hn
    exact absurd hs hne
  exact fun h ↦ h _ _ _ hkept rfl (detecting_detectionInst hpos.ne')

end LeftBehind

def orphanFlow : FlowRow := { Demo.flow1 with serviceId := none }

def orphanDb : Db where
  flows := [orphanFlow]
  flows_id := by decide
  service := []
  vnf := []

end NshSfc.Consumption
