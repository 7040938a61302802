import NshSfc.Async
import NshSfc.Keys

namespace NshSfc.Provenance

open Library Library.Script Python Database OpenFlow RowMatch App Packets Controller Sent Handler
  Switch Async

variable {app : SfcApp} {links : Links} {db : Db} {σ σ' : State} {e : Event} {row : FlowRow} {s : Int}
  {k : FlowKey} {i : List Instruction} {m : SwitchMod}

inductive Rule (app : SfcApp) (row : FlowRow) (n : Message) : Prop
  | add (h : AddRule app row n)
  | delete (h : DeleteRule app row n)
  | install (msg : PacketIn) (h : InstallRule app msg row n)

inductive Concerns (id : Int) : Event → Prop
  | addFlow : Concerns id (.addFlow id)
  | deleteFlow : Concerns id (.deleteFlow id)
  | handle {msg : PacketIn} {flowId : ℕ} (h : msg.metadata = some flowId) (hid : flowId = id)
      (fuel : ℕ) : Concerns id (.handle msg fuel)

theorem sent_rule {n : Message} (hn : n ∈ e.sent app db) :
    ∃ r ∈ db.flows, Concerns r.id e ∧ Rule app (deriveTypes r) n := by
  cases e with
  | addFlow flowId =>
    obtain ⟨r, hr, h⟩ := apiAddFlow_sent hn
    obtain ⟨hmem, rfl⟩ := Db.mem_selectFlows.mp hr
    exact ⟨r, hmem, .addFlow, .add h⟩
  | deleteFlow flowId =>
    obtain ⟨r, hr, h⟩ := apiDeleteFlow_sent hn
    obtain ⟨hmem, rfl⟩ := Db.mem_selectFlows.mp (List.mem_of_head? hr)
    exact ⟨r, hmem, .deleteFlow, .delete h⟩
  | handle msg fuel =>
    have hn : n ∈ (packetInHandler fuel app db msg).sent := hn
    obtain ⟨flowId, row, m, hid, hm, hrule⟩ := handler_sends hn
    obtain ⟨r, hr, rfl⟩ := hm.head
    obtain ⟨hr, hrid⟩ := Db.mem_selectFlows.mp (List.mem_of_head? hr)
    refine ⟨r, hr, .handle hid hrid.symm fuel, ?_⟩
    rcases hrule with ⟨dp, hdp, rfl⟩ | hrule
    · exact .delete (.common hdp hm.common hm.packs)
    · exact .install msg hrule
  | process | enter | forward => cases hn

/-- The entries of a flow with row `row`. -/
inductive FlowEntry (row : FlowRow) : FlowKey → List Instruction → Prop
  | detection {m : OFPMatch} (hm : matchCommon row = .ok m) :
      FlowEntry row ⟨0, 8, OFPMatch.fields m⟩ (detectionInst row.id)
  | source {p : Int} {m : OFPMatch} (hm : matchEntryPoint p row = .ok m) (spi si : Int)
      (loc src : String) : FlowEntry row ⟨0, 8, OFPMatch.fields m⟩
        (flowInstructions (encapActions spi si loc src) none (some 3))
  | middle {p : Option Int} {m : OFPMatch} (hm : matchMiddle p row = .ok m) (spi si : Int)
      (loc src : String) : FlowEntry row ⟨0, 6, OFPMatch.fields m⟩
        (flowInstructions (encapActions spi si loc src) (some row.id) (some 3))
  | aware (spi si : Int) (loc : String) : FlowEntry row ⟨1, 8, OFPMatch.fields (matchSpiSi spi si)⟩
      (flowInstructions [.setField .ethDst (.str loc)] (some row.id) (some 3))
  | delivery (spi si : Int) (loc : String) (port : Int) :
      FlowEntry row ⟨1, 6, OFPMatch.fields (matchHop loc spi si)⟩
        (flowInstructions [.decap, .decap, .output (.phys port)] (some row.id) none)
  | last (spi : Int) : FlowEntry row ⟨1, 8, OFPMatch.fields (matchSpiSi spi 0)⟩
      (flowInstructions [.decap, .decap] (some row.id) (some 3))

def Placed (app : SfcApp) (row : FlowRow) (s : Int) (m : SwitchMod) : Prop :=
  ∃ n, Rule app row n ∧ n.1.id = s ∧ n.2.toMod = m

theorem Placed.entry (h : Placed app row s (.add k i)) : FlowEntry row k i := by
  obtain ⟨n, hrule, -, hadd⟩ := h
  cases hrule with
  | add h =>
    cases h with
    | detection hdp hm =>
      cases hadd
      exact .detection hm
  | delete h => cases h <;> cases hadd
  | install msg h =>
    cases h with
    | source hm =>
      cases hadd
      exact .source hm _ _ _ _
    | chain h =>
      cases h with
      | aware =>
        cases hadd
        exact .aware ..
      | middle hdp hspi p hm =>
        cases hadd
        exact .middle hm _ _ _ _
      | delivery =>
        cases hadd
        exact .delivery ..
      | last =>
        cases hadd
        exact .last _

theorem Placed.table_le (h : Placed app row s m) (hk : m.Touches k) : k.table ≤ 1 := by
  obtain ⟨n, hrule, hs, rfl⟩ := h
  cases hn : n.2.toMod with
  | add k' i =>
    rw [hn] at hk
    obtain rfl : k' = k := hk
    have he : FlowEntry row k' i := Placed.entry ⟨n, hrule, hs, hn⟩
    cases he <;> simp
  | delete t c =>
    rw [hn] at hk
    cases hrule with
    | add h =>
      cases h
      cases hn
    | delete h =>
      cases h <;> cases hn <;> exact hk.1.le.trans (Nat.zero_le 1)
    | install msg h =>
      obtain ⟨dp, t, p, m, a, i, g, rfl, -⟩ := InstallRule.exists_add h
      cases hn

theorem Placed.delete_inPort {t : ℕ} {c : FieldMatch} (h : Placed app row s (.delete t c)) :
    c .inPort = none := by
  obtain ⟨n, hrule, -, hn⟩ := h
  cases hrule with
  | add h =>
    cases h
    cases hn
  | delete h =>
    cases h with
    | common hdp hm =>
      cases hn
      exact matchCommon_inPort hm
    | spi hdp hspi =>
      cases hn
      rfl
  | install msg h =>
    obtain ⟨dp, t, p, m, a, i, g, rfl, -⟩ := InstallRule.exists_add h
    cases hn

theorem Placed.connected {id : Int} (h : Placed app row s (.add k (detectionInst id))) :
    (∃ dp ∈ app.datapaths, dp.id = s) ∧ row.id = id ∧
      ∃ m, matchCommon row = .ok m ∧ m.packs ∧ k = ⟨0, 8, OFPMatch.fields m⟩ := by
  obtain ⟨n, hrule, rfl, hadd⟩ := h
  cases hrule with
  | add h =>
    cases h with
    | @detection dp hdp m hm hp =>
      obtain ⟨rfl, hi⟩ := Mod.add.inj hadd
      exact ⟨⟨dp, hdp, rfl⟩, flowInstructions_metadata_inj hi, m, hm, hp, rfl⟩
  | delete h => cases h <;> cases hadd
  | install msg h => exact absurd rfl (InstallRule.ne_detection h hadd id)

/-- In a run from `db`: the tables hold default entries and entries of flows, the queues hold
flow-mods for flows, and the default entries of the last two tables are in place. -/
structure Base (app : SfcApp) (db : Db) (σ : State) : Prop where
  earlier : Earlier db σ.db
  tables : ∀ s k i, σ.switches.tables s k = some i →
    DefaultEntry k i ∨ ∃ r ∈ db.flows, Placed app (deriveTypes r) s (.add k i)
  queue : ∀ s m, m ∈ σ.switches.queue s → ∃ r ∈ db.flows, Placed app (deriveTypes r) s m
  default : ∀ s k i, DefaultEntry k i → 2 ≤ k.table → σ.switches.tables s k = some i

theorem Base.start (app : SfcApp) (db : Db) : Base app db (start db) where
  earlier := .refl db
  tables _ _ _ h := .inl (defaultTable_iff.mp h)
  queue _ _ h := by cases h
  default _ _ _ h _ := defaultTable_iff.mpr h

theorem Base.flows (h : Base app db σ) : σ.db.flows = db.flows := h.earlier.flows

theorem Base.sent_placed (h : Base app db σ) {n : Message} (hn : n ∈ e.sent app σ.db)
    (hs : n.1.id = s) : ∃ r ∈ db.flows, Placed app (deriveTypes r) s n.2.toMod := by
  obtain ⟨r, hr, -, hrule⟩ := sent_rule hn
  rw [h.flows] at hr
  exact ⟨r, hr, n, hrule, hs, rfl⟩

theorem Base.step (h : Base app db σ) (hst : Step app links σ e σ') : Base app db σ' where
  earlier := h.earlier.trans hst.earlier
  tables := by
    intro s k i hk
    rcases hst.tables hk with hk | hk
    · exact h.tables s k i hk
    · exact .inr (h.queue s _ hk)
  queue := by
    intro s m hm
    rcases hst.queue hm with hm | ⟨n, hn, hs, rfl⟩
    · exact h.queue s m hm
    · exact h.sent_placed hn hs
  default := by
    intro s k i hd ht
    rw [hst.kept, h.default s k i hd ht]
    intro m hm htouches
    obtain ⟨r, -, hp⟩ := h.queue s m hm
    have hle := hp.table_le htouches
    omega

theorem Base.run {es : List Event} (h : Base app db σ) (hrun : Run (Step app links) σ es σ') :
    Base app db σ' := hrun.invariant _ (fun _ _ _ hτ hst ↦ hτ.step hst) h

theorem Base.packs {flowId : ℕ} {c : OFPMatch} (h : Base app db σ) (hc : Derived db flowId row c)
    (hk : σ.switches.tables s ⟨0, 8, OFPMatch.fields c⟩ = some (detectionInst flowId)) : c.packs := by
  rcases h.tables s _ _ hk with hd | ⟨r, hr, hplaced⟩
  · exact absurd (isDefault_of_defaultTable (defaultTable_iff.mpr hd))
      (Keys.detection_keyOf hc.common 0).not_isDefault
  · obtain ⟨-, hid, m, hm, hp, -⟩ := hplaced.connected
    have hrow := rowOf_of_mem (Db.mem_selectFlows.mpr ⟨hr, hid⟩) hc.rowOf
    obtain rfl : c = m := Except.ok.inj (hc.common.symm.trans (hrow ▸ hm))
    exact hp

theorem Base.matched {flowId : ℕ} {c : OFPMatch} (h : Base app db σ) (hm : Matched db flowId row c) :
    Matched σ.db flowId row c := matched_later h.earlier hm

end NshSfc.Provenance
