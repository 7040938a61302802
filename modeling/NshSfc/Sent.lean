import NshSfc.Controller

namespace NshSfc.Sent

open Library Library.Script Python Database OpenFlow RowMatch App Packets Controller

variable {app : SfcApp} {db : Db} {msg : PacketIn}

def detectionInst (flowId : Int) : List Instruction := flowInstructions [] (some flowId) (some 2)

theorem nonneg_of_packs {flowId : Int} (h : (detectionInst flowId).all Instruction.packs) :
    0 ≤ flowId := by
  by_cases h0 : flowId = 0
  · exact h0.ge
  · simpa [detectionInst, flowInstructions, Instruction.packs, h0] using h

inductive ChainRule (app : SfcApp) (ethSrc : String) (row : FlowRow) : Message → Prop
  | aware {dp : Datapath} (hdp : dp ∈ app.datapaths) {spi : Int} (hspi : row.serviceId = some spi)
      (si : Int) (loc : String) :
      ChainRule app ethSrc row (dp, .add 1 8 (matchSpiSi spi si)
        (flowInstructions [.setField .ethDst (.str loc)] (some row.id) (some 3)))
  | middle {dp : Datapath} (hdp : dp ∈ app.datapaths) {spi : Int} (hspi : row.serviceId = some spi)
      (inPort : Option Int) {m : OFPMatch} (hm : matchMiddle inPort row = .ok m) (si : Int)
      (loc : String) :
      ChainRule app ethSrc row (dp, .add 0 6 m
        (flowInstructions (encapActions spi si loc ethSrc) (some row.id) (some 3)))
  | delivery {dp : Datapath} (hdp : dp ∈ app.datapaths) {spi : Int}
      (hspi : row.serviceId = some spi) (loc : String) (si inPort : Int) :
      ChainRule app ethSrc row (dp, .add 1 6 (matchHop loc spi si)
        (flowInstructions [.decap, .decap, .output (.phys inPort)] (some row.id) none))
  | last {dp : Datapath} (hdp : dp ∈ app.datapaths) {spi : Int} (hspi : row.serviceId = some spi) :
      ChainRule app ethSrc row (dp, .add 1 8 (matchSpiSi spi 0)
        (flowInstructions [.decap, .decap] (some row.id) (some 3)))

inductive InstallRule (app : SfcApp) (msg : PacketIn) (row : FlowRow) : Message → Prop
  | source {m : OFPMatch} (hm : matchEntryPoint msg.inPort row = .ok m) {spi : Int}
      (hspi : row.serviceId = some spi) (si : Int) (loc : String) :
      InstallRule app msg row (msg.datapath, .add 0 8 m
        (flowInstructions (encapActions spi si loc msg.packet.ethSrc) none (some 3)))
  | chain {m : Message} (h : ChainRule app msg.packet.ethSrc row m) : InstallRule app msg row m

inductive AddRule (app : SfcApp) (row : FlowRow) : Message → Prop
  | detection {dp : Datapath} (hdp : dp ∈ app.datapaths) {m : OFPMatch} (hm : matchAdd row = .ok m)
      (hp : m.packs) (hid : 0 ≤ row.id) : AddRule app row (dp, .add 0 8 m (detectionInst row.id))

inductive DeleteRule (app : SfcApp) (row : FlowRow) : Message → Prop
  | common {dp : Datapath} (hdp : dp ∈ app.datapaths) {m : OFPMatch} (hm : matchDel row = .ok m)
      (hp : m.packs) : DeleteRule app row (dp, .delete 0 m)
  | spi {dp : Datapath} (hdp : dp ∈ app.datapaths) {spi : Int} (hspi : row.serviceId = some spi) :
      DeleteRule app row (dp, .delete 0 (matchSpi spi))

theorem py_ensures {α : Type} {P : Message → Prop} (r : Except PyError α) :
    Ensures P (py r) fun a ↦ r = .ok a where
  sent := by simp
  result := fun _ h ↦ py_result_ok.mp h

theorem fetchone_ensures {α : Type} {P : Message → Prop} (rows : List α) :
    Ensures P (fetchone rows) fun a ↦ rows.head? = some a where
  sent := by simp
  result := fun _ h ↦ fetchone_result_ok.mp h

theorem datapath_ensures {P : Message → Prop} (dpid : Option Int) :
    Ensures P (app.datapath dpid) fun dp ↦ dp ∈ app.datapaths ∧ dpid = some dp.id where
  sent := by simp
  result := fun _ h ↦ datapath_result_ok h

theorem sendMsg_ensures {P : Message → Prop} {dp : Datapath} {mod : FlowMod}
    (h : mod.packs → P (dp, mod)) : Ensures P (sendMsg dp mod) fun _ ↦ mod.packs := by
  by_cases hp : mod.packs
  · rw [sendMsg_of_packs hp]
    exact (Ensures.send (h hp)).mono (fun _ hm ↦ hm) fun _ _ ↦ hp
  · rw [sendMsg_of_not_packs hp]
    exact .raise _

theorem addFlow_ensures {P : Message → Prop} {dp : Datapath} {priority tableId : ℕ} {m : OFPMatch}
    {actions : List Action} {metadata : Option Int} {gotoId : Option ℕ}
    (h : m.packs → P (dp, .add tableId priority m (flowInstructions actions metadata gotoId))) :
    Ensures P (addFlow dp priority m actions tableId metadata gotoId) fun _ ↦ m.packs := by
  have hand : ∀ {is}, FlowMod.packs (.add tableId priority m is) → m.packs :=
    fun hp ↦ (Bool.and_eq_true_iff.mp hp).1
  exact (sendMsg_ensures fun hp ↦ h (hand hp)).mono (fun _ hm ↦ hm) fun _ ↦ hand

theorem delFlow_ensures {P : Message → Prop} {dp : Datapath} {m : OFPMatch}
    (h : m.packs → P (dp, .delete 0 m)) : Ensures P (delFlow dp m) fun _ ↦ m.packs :=
  sendMsg_ensures h

theorem fetchone_eq {α : Type} {rows : List α} {a : α} (h : rows.head? = some a) :
    fetchone rows = (pure a : Ctl α) := eq_of_sent_nil (fetchone_sent rows) (fetchone_result_ok.mpr h)

theorem datapath_eq {dpid : Option Int} {dp : Datapath} (h : (app.datapath dpid).result = .ok dp) :
    app.datapath dpid = pure dp := eq_of_sent_nil (datapath_sent app dpid) h

section Hop

variable {flowId : ℕ} {ethSrc : String} {w : Walk} {dp : Datapath} {next : Option Int} {n : Int}

theorem hop_steer (hdp : app.datapath w.dpid = pure dp)
    (hnext : (db.selectNextVnfId w.row.serviceId w.vnfId).head? = some next)
    (hn : next.filter truthy = some n)
    (hb : (db.selectBidirectional n).head? = some (some "True")) :
    hop app db flowId ethSrc w =
      steer db flowId ethSrc dp w n >>= fun w' ↦ pure (some w') := by
  simp only [hop, hdp, fetchone_eq hnext, Script.pure_bind, hn, fetchone_eq hb, if_true]

theorem hop_skip {b : Option String} (hdp : app.datapath w.dpid = pure dp)
    (hnext : (db.selectNextVnfId w.row.serviceId w.vnfId).head? = some next)
    (hn : next.filter truthy = some n)
    (hb : (db.selectBidirectional n).head? = some b) (hne : b ≠ some "True") :
    hop app db flowId ethSrc w = pure (some { w with vnfId := n }) := by
  simp only [hop, hdp, fetchone_eq hnext, Script.pure_bind, hn, fetchone_eq hb, if_neg hne]

theorem hop_finish (hdp : app.datapath w.dpid = pure dp)
    (hnext : (db.selectNextVnfId w.row.serviceId w.vnfId).head? = some next)
    (hn : next.filter truthy = none) :
    hop app db flowId ethSrc w = finish dp w >>= fun _ ↦ pure none := by
  simp only [hop, hdp, fetchone_eq hnext, Script.pure_bind, hn]

inductive HopCase (app : SfcApp) (db : Db) (flowId : ℕ) (ethSrc : String) (w : Walk) :
    Option Walk → List Message → Prop
  | steer {dp : Datapath} (hdp : dp ∈ app.datapaths) {n : Int} {w' : Walk}
      (h : (steer db flowId ethSrc dp w n).result = .ok w') :
      HopCase app db flowId ethSrc w (some w') (steer db flowId ethSrc dp w n).sent
  | skip (n : Int) : HopCase app db flowId ethSrc w (some { w with vnfId := n }) []
  | finish {dp : Datapath} (hdp : dp ∈ app.datapaths) (h : (finish dp w).result = .ok ()) :
      HopCase app db flowId ethSrc w none (finish dp w).sent

theorem hop_cases {r : Option Walk} (h : (hop app db flowId ethSrc w).result = .ok r) :
    HopCase app db flowId ethSrc w r (hop app db flowId ethSrc w).sent := by
  obtain ⟨dp, hdp, hrest⟩ := bind_result_ok.mp h
  obtain ⟨next, hnext, hrest⟩ := bind_result_ok.mp hrest
  have hmem := (datapath_result_ok hdp).1
  have hdp := datapath_eq hdp
  have hnext := fetchone_result_ok.mp hnext
  cases hn : next.filter truthy with
  | none =>
    rw [hop_finish hdp hnext hn] at h ⊢
    obtain ⟨⟨⟩, hf, hr⟩ := bind_result_ok.mp h
    cases hr
    rw [bind_of_ok hf]
    simpa using HopCase.finish hmem hf
  | some n =>
    simp only [hn] at hrest
    obtain ⟨b, hb, -⟩ := bind_result_ok.mp hrest
    have hb := fetchone_result_ok.mp hb
    by_cases htrue : b = some "True"
    · subst htrue
      rw [hop_steer hdp hnext hn hb] at h ⊢
      obtain ⟨w', hs, hr⟩ := bind_result_ok.mp h
      cases hr
      rw [bind_of_ok hs]
      simpa using HopCase.steer hmem hs
    · rw [hop_skip hdp hnext hn hb htrue] at h ⊢
      cases h
      exact .skip n

end Hop

def RowOf (db : Db) (flowId : ℕ) (row : FlowRow) : Prop :=
  (db.selectFlows flowId).head?.map deriveTypes = some row

theorem RowOf.eq_of_head {flowId : ℕ} {row r : FlowRow} (h : RowOf db flowId row)
    (hr : (db.selectFlows flowId).head? = some r) : deriveTypes r = row := by
  rw [RowOf, hr] at h
  exact Option.some.inj h

theorem steer_ensures {flowId : ℕ} {ethSrc : String} {dp : Datapath} (hdp : dp ∈ app.datapaths)
    {w : Walk} (hw : RowOf db flowId w.row) (nextVnfId : Int) :
    Ensures (ChainRule app ethSrc w.row) (steer db flowId ethSrc dp w nextVnfId)
      fun w' ↦ w'.row = w.row ∧ w'.vnfId = nextVnfId := by
  unfold steer
  refine .bind (fetchone_ensures _) fun ⟨locatorAddr, dpid, inPort2⟩ _ _ ↦ ?_
  refine .bind (fetchone_ensures _) fun currentSi _ _ ↦ ?_
  refine .bind (py_ensures _) fun spi _ hspi ↦ ?_
  refine .bind (py_ensures _) fun loc _ _ ↦ ?_
  have hspi : w.row.serviceId = some spi := intOfColumn_ok.mp hspi
  refine .bind (addFlow_ensures fun _ ↦ .aware hdp hspi currentSi loc) fun _ _ _ ↦ ?_
  refine .bind (fetchone_ensures _) fun row _ hrow ↦ ?_
  simp only [hw.eq_of_head hrow]
  refine .bind (py_ensures _) fun m _ hm ↦ ?_
  refine .bind (py_ensures _) fun spi' _ hspi' ↦ ?_
  obtain rfl : spi = spi' := Option.some.inj (hspi.symm.trans (intOfColumn_ok.mp hspi'))
  refine .bind (addFlow_ensures fun _ ↦ .middle hdp hspi w.inPort hm currentSi loc) fun _ _ _ ↦ ?_
  refine .bind (py_ensures _) fun inPort _ _ ↦ ?_
  refine .bind (addFlow_ensures fun _ ↦ .delivery hdp hspi w.lastLoc w.lastSi inPort) fun _ _ _ ↦ ?_
  exact .pure ⟨rfl, rfl⟩

theorem finish_ensures {ethSrc : String} {dp : Datapath} (hdp : dp ∈ app.datapaths) (w : Walk) :
    Ensures (ChainRule app ethSrc w.row) (finish dp w) fun _ ↦ True := by
  unfold finish
  refine .bind (py_ensures _) fun spi _ hspi ↦ ?_
  have hspi : w.row.serviceId = some spi := intOfColumn_ok.mp hspi
  refine .bind (addFlow_ensures fun _ ↦ .last hdp hspi) fun _ _ _ ↦ ?_
  refine .bind (py_ensures _) fun inPort _ _ ↦ ?_
  exact (addFlow_ensures fun _ ↦ .delivery hdp hspi w.lastLoc 1 inPort).mono (fun _ h ↦ h) fun _ _ ↦ trivial

theorem hop_ensures {flowId : ℕ} {ethSrc : String} {w : Walk} (hw : RowOf db flowId w.row) :
    Ensures (ChainRule app ethSrc w.row) (hop app db flowId ethSrc w)
      fun w' ↦ ∀ x ∈ w', x.row = w.row := by
  unfold hop
  refine .bind (datapath_ensures _) fun dp _ hdp ↦ ?_
  refine .bind (fetchone_ensures _) fun nextVnfId _ _ ↦ ?_
  split
  · refine .bind (fetchone_ensures _) fun bidirectional _ _ ↦ ?_
    split
    · refine .bind (steer_ensures hdp.1 hw _) fun w' _ hw' ↦ .pure ?_
      rintro x ⟨⟩
      exact hw'.1
    · refine .pure ?_
      rintro x ⟨⟩
      rfl
  · exact .bind (finish_ensures hdp.1 w) fun _ _ _ ↦ .pure (by simp)

theorem walk_ensures {flowId : ℕ} {ethSrc : String} (fuel : ℕ) {w : Walk}
    (hw : RowOf db flowId w.row) :
    Ensures (ChainRule app ethSrc w.row) (walk app db flowId ethSrc fuel w) fun _ ↦ True := by
  induction fuel generalizing w with
  | zero => exact .raise _
  | succ fuel ih =>
    refine .bind (hop_ensures hw) fun w' _ hw' ↦ ?_
    cases w' with
    | none => exact .pure trivial
    | some w' =>
      have hrow := hw' w' rfl
      exact hrow ▸ ih (hrow.symm ▸ hw)

theorem firstVnf_ensures {P : Message → Prop} (serviceId : Option Int) :
    Ensures P (firstVnf db msg serviceId) fun _ ↦ True := by
  unfold firstVnf
  refine .bind (fetchone_ensures _) fun vnfId _ _ ↦ ?_
  refine .bind (fetchone_ensures _) fun bidirectional _ _ ↦ ?_
  split
  · exact .bind (fetchone_ensures _) fun _ _ _ ↦ .pure trivial
  · split
    · exact .pure trivial
    · exact .raise _

theorem firstVnf_sent (serviceId : Option Int) : (firstVnf db msg serviceId).sent = [] :=
  List.eq_nil_iff_forall_not_mem.mpr (firstVnf_ensures (P := fun _ ↦ False) serviceId).sent

theorem firstVnf_ends (serviceId : Option Int) :
    (firstVnf db msg serviceId).result ≠ .error .outOfFuel := by
  unfold firstVnf
  cases db.selectFirstVnfId serviceId with
  | nil => simp [fetchone]
  | cons vnfId _ =>
    simp only [fetchone, Script.pure_bind]
    cases db.selectBidirectional vnfId with
    | nil => simp
    | cons b _ =>
      simp only [Script.pure_bind]
      split
      · cases db.selectLocator vnfId <;> simp
      · split <;> simp

theorem install_ensures {flowId : ℕ} {row : FlowRow} {entry : OFPMatch} (fuel : ℕ)
    (hrow : RowOf db flowId row) (hentry : matchEntryPoint msg.inPort row = .ok entry) :
    Ensures (InstallRule app msg row) (install fuel app db msg flowId row entry) fun _ ↦ True := by
  unfold install
  refine .bind (firstVnf_ensures _) fun ⟨vnfId, locatorAddr, dpid, inPort⟩ _ _ ↦ ?_
  refine .bind (py_ensures _) fun spi _ hspi ↦ ?_
  refine .bind (py_ensures _) fun loc _ _ ↦ ?_
  refine .bind (addFlow_ensures fun _ ↦ .source hentry (intOfColumn_ok.mp hspi) _ loc) fun _ _ _ ↦ ?_
  exact (walk_ensures fuel hrow).mono (fun _ h ↦ .chain h) fun _ h ↦ h

/-- A packet-in of a flow that is not a registration packet: table 2 of a connected switch
reports the flow's id. -/
structure OfFlow (app : SfcApp) (flowId : ℕ) (msg : PacketIn) : Prop where
  datapath : msg.datapath ∈ app.datapaths
  tableId : msg.tableId = 2
  metadata : msg.metadata = some flowId
  notRegistration : isRegistration msg = false

theorem handler_of_not_registration (h : isRegistration msg = false) (fuel : ℕ) :
    packetInHandler fuel app db msg =
      catching isKeyError (activate fuel app db msg) >>= fun _ ↦ pure db := by
  simp [packetInHandler, register, h]

theorem handler_sent (h : isRegistration msg = false) (fuel : ℕ) :
    (packetInHandler fuel app db msg).sent = (activate fuel app db msg).sent := by
  rw [handler_of_not_registration h]
  cases hr : (catching isKeyError (activate fuel app db msg)).result with
  | ok a => simp [bind_of_ok hr]
  | error e => simp [bind_of_error hr]

theorem activate_built {flowId : ℕ} {row : FlowRow} {entry m : OFPMatch}
    (hid : msg.metadata = some flowId) (htable : msg.tableId = 2)
    (hrow : (db.selectFlows flowId).head? = some row)
    (hentry : matchEntryPoint msg.inPort (deriveTypes row) = .ok entry)
    (hm : matchCommon (deriveTypes row) = .ok m) (fuel : ℕ) :
    activate fuel app db msg = forEach (fun dp ↦ delFlow dp m) app.datapaths >>= fun _ ↦
      install fuel app db msg flowId (deriveTypes row) entry := by
  simp only [activate, hid, htable, if_true, fetchone_eq hrow, Script.pure_bind, hentry, hm, py_ok]

theorem activate_table2 {flowId : ℕ} {row : FlowRow} {entry m : OFPMatch}
    (hid : msg.metadata = some flowId) (htable : msg.tableId = 2)
    (hrow : (db.selectFlows flowId).head? = some row)
    (hentry : matchEntryPoint msg.inPort (deriveTypes row) = .ok entry)
    (hm : matchCommon (deriveTypes row) = .ok m) (hp : m.packs) (fuel : ℕ) :
    activate fuel app db msg =
      ⟨app.datapaths.map (fun dp ↦ (dp, .delete 0 m)) ++
          (install fuel app db msg flowId (deriveTypes row) entry).sent,
        (install fuel app db msg flowId (deriveTypes row) entry).result⟩ := by
  simp only [activate_built hid htable hrow hentry hm, delFlow_of_packs hp]
  rw [forEach_of_ok _ fun dp _ ↦ rfl, bind_of_ok rfl]
  simp [← List.map_eq_flatMap]

theorem activate_eq {flowId : ℕ} {row : FlowRow} {entry m : OFPMatch} (h : OfFlow app flowId msg)
    (hrow : (db.selectFlows flowId).head? = some row)
    (hentry : matchEntryPoint msg.inPort (deriveTypes row) = .ok entry)
    (hm : matchCommon (deriveTypes row) = .ok m) (hp : m.packs) (fuel : ℕ) :
    activate fuel app db msg =
      ⟨app.datapaths.map (fun dp ↦ (dp, .delete 0 m)) ++
          (install fuel app db msg flowId (deriveTypes row) entry).sent,
        (install fuel app db msg flowId (deriveTypes row) entry).result⟩ :=
  activate_table2 h.metadata h.tableId hrow hentry hm hp fuel

theorem activate_raised {flowId : ℕ} {row : FlowRow} {e : PyError} (h : OfFlow app flowId msg)
    (hrow : (db.selectFlows flowId).head? = some row)
    (hentry : matchEntryPoint msg.inPort (deriveTypes row) = .error e) (fuel : ℕ) :
    activate fuel app db msg = .raise (.raised e) := by
  simp only [activate, h.metadata, h.tableId, if_true, fetchone_eq hrow, Script.pure_bind, hentry,
    py_error, raise_bind]

theorem install_eq {flowId : ℕ} {row : FlowRow} {vnfId spi : Int} {loc : String}
    {dpid inPort : Option Int} (hspi : row.serviceId = some spi)
    (hf : (firstVnf db msg row.serviceId).result = .ok (vnfId, some loc, dpid, inPort))
    (entry : OFPMatch) (fuel : ℕ) :
    install fuel app db msg flowId row entry =
      addFlow msg.datapath 8 entry
        (encapActions spi (db.selectVnfIds row.serviceId).length loc msg.packet.ethSrc) 0 none
        (some 3) >>= fun _ ↦
      walk app db flowId msg.packet.ethSrc fuel
        ⟨vnfId, dpid, inPort, (db.selectVnfIds row.serviceId).length, loc, row⟩ := by
  have hfirst : firstVnf db msg row.serviceId = pure (vnfId, some loc, dpid, inPort) :=
    eq_of_sent_nil (firstVnf_sent _) hf
  simp only [install, hfirst, Script.pure_bind]
  simp [hspi, intOfColumn, textOfColumn]

theorem install_cases (app : SfcApp) (db : Db) (msg : PacketIn) (flowId : ℕ) (row : FlowRow)
    (entry : OFPMatch) :
    (∃ e, e ≠ .outOfFuel ∧ ∀ fuel, install fuel app db msg flowId row entry = .raise e) ∨
    ∃ vnfId loc dpid inPort spi, row.serviceId = some spi ∧
      (firstVnf db msg row.serviceId).result = .ok (vnfId, some loc, dpid, inPort) := by
  cases hf : (firstVnf db msg row.serviceId).result with
  | error e =>
    have hfirst : firstVnf db msg row.serviceId = .raise e := eq_of_sent_nil (firstVnf_sent _) hf
    refine .inl ⟨e, ?_, fun fuel ↦ by simp only [install, hfirst, raise_bind]⟩
    rintro rfl
    exact firstVnf_ends _ hf
  | ok first =>
    obtain ⟨vnfId, locatorAddr, dpid, inPort⟩ := first
    have hfirst : firstVnf db msg row.serviceId = pure (vnfId, locatorAddr, dpid, inPort) :=
      eq_of_sent_nil (firstVnf_sent _) hf
    cases hspi : row.serviceId with
    | none =>
      refine .inl ⟨.raised .typeError, by simp, fun fuel ↦ ?_⟩
      simp only [install, hfirst, Script.pure_bind]
      simp [hspi, intOfColumn]
    | some spi =>
      cases locatorAddr with
      | none =>
        refine .inl ⟨.raised .typeError, by simp, fun fuel ↦ ?_⟩
        simp only [install, hfirst, Script.pure_bind]
        simp [hspi, intOfColumn, textOfColumn]
      | some loc => exact .inr ⟨vnfId, loc, dpid, inPort, spi, rfl, rfl⟩

/-- A match that cannot be packed stops the handler before anything is sent: at the first delete, or
at the source entry if no switch is connected. -/
theorem activate_not_packs (app : SfcApp) {flowId : ℕ} {row : FlowRow} {entry m : OFPMatch}
    (hid : msg.metadata = some flowId) (htable : msg.tableId = 2)
    (hrow : (db.selectFlows flowId).head? = some row)
    (hentry : matchEntryPoint msg.inPort (deriveTypes row) = .ok entry)
    (hm : matchCommon (deriveTypes row) = .ok m) (hp : ¬ m.packs) :
    ∃ e, e ≠ .outOfFuel ∧ ∀ fuel, activate fuel app db msg = .raise e := by
  have hentryp : ¬ entry.packs := fun h ↦ hp ((matchEntryPoint_packs hm hentry).mp h)
  simp only [activate_built hid htable hrow hentry hm]
  cases app.datapaths with
  | nil =>
    simp only [forEach, Script.pure_bind]
    rcases install_cases app db msg flowId (deriveTypes row) entry with
      ⟨e, he, hraise⟩ | ⟨vnfId, loc, dpid, inPort, spi, hspi, hf⟩
    · exact ⟨e, he, hraise⟩
    · refine ⟨.raised .structError, by simp, fun fuel ↦ ?_⟩
      rw [install_eq hspi hf, addFlow_of_not_packs hentryp, raise_bind]
  | cons dp dps =>
    refine ⟨.raised .structError, by simp, fun fuel ↦ ?_⟩
    rw [forEach_cons, delFlow_of_not_packs hp, raise_bind, raise_bind]

theorem activate_structError {flowId : ℕ} {row : FlowRow} {entry m : OFPMatch}
    (h : OfFlow app flowId msg) (hrow : (db.selectFlows flowId).head? = some row)
    (hentry : matchEntryPoint msg.inPort (deriveTypes row) = .ok entry)
    (hm : matchCommon (deriveTypes row) = .ok m) (hp : ¬ m.packs) (fuel : ℕ) :
    activate fuel app db msg = .raise (.raised .structError) := by
  obtain ⟨dp, dps, hdps⟩ := List.exists_cons_of_ne_nil (List.ne_nil_of_mem h.datapath)
  rw [activate_built h.metadata h.tableId hrow hentry hm, hdps, forEach_cons, delFlow_of_not_packs hp,
    raise_bind, raise_bind]

theorem activate_stopped {flowId : ℕ} (h : OfFlow app flowId msg)
    (hstop : ∀ row, (db.selectFlows flowId).head? = some row →
      ∀ m, matchCommon (deriveTypes row) = .ok m → ¬ m.packs) :
    ∃ e, e ≠ .outOfFuel ∧ ∀ fuel, activate fuel app db msg = .raise e := by
  cases hs : db.selectFlows flowId with
  | nil =>
    refine ⟨.raised .typeError, by simp, fun fuel ↦ ?_⟩
    simp only [activate, h.metadata, h.tableId, if_true, hs, fetchone_nil, raise_bind]
  | cons row rows =>
    have hrow : (db.selectFlows flowId).head? = some row := by rw [hs]; rfl
    cases he : matchEntryPoint msg.inPort (deriveTypes row) with
    | error e => exact ⟨.raised e, by simp, activate_raised h hrow he⟩
    | ok entry =>
      obtain ⟨m, hm⟩ := flowMatch_ok_of_ok he (ethFields (deriveTypes row))
      exact activate_not_packs _ h.metadata h.tableId hrow he hm (hstop row hrow m hm)

theorem addDetection_ensures {row : FlowRow} {dp : Datapath} (hdp : dp ∈ app.datapaths) :
    Ensures (AddRule app row) (addDetection row dp) fun _ ↦ True :=
  .bind (py_ensures _) fun _ _ hm ↦ (sendMsg_ensures fun hp ↦ .detection hdp hm
    (Bool.and_eq_true_iff.mp hp).1 (nonneg_of_packs (Bool.and_eq_true_iff.mp hp).2)).mono
      (fun _ h ↦ h) fun _ _ ↦ trivial

theorem deleteEntries_ensures {row : FlowRow} {dp : Datapath} (hdp : dp ∈ app.datapaths) :
    Ensures (DeleteRule app row) (deleteEntries row dp) fun _ ↦ True := by
  refine .bind (py_ensures _) fun m _ hm ↦ ?_
  refine .bind (delFlow_ensures fun hp ↦ .common hdp hm hp) fun _ _ _ ↦ ?_
  refine .bind (py_ensures _) fun spi _ hspi ↦ ?_
  exact (delFlow_ensures fun _ ↦ .spi hdp (intOfColumn_ok.mp hspi)).mono (fun _ h ↦ h) fun _ _ ↦ trivial

theorem apiAddFlow_sent {flowId : Int} {m : Message} (hm : m ∈ (apiAddFlow app db flowId).sent) :
    ∃ row ∈ db.selectFlows flowId, AddRule app (deriveTypes row) m := by
  unfold apiAddFlow at hm
  split at hm
  · simp at hm
  · rename_i rows _
    have h : Ensures (fun m ↦ ∃ row ∈ db.selectFlows flowId, AddRule app (deriveTypes row) m)
        (forEach (fun row ↦ forEach (addDetection (deriveTypes row)) app.datapaths)
          (db.selectFlows flowId)) fun _ ↦ True :=
      .forEach fun row hrow ↦ (Ensures.forEach fun dp hdp ↦ addDetection_ensures hdp).mono
        (fun m hm ↦ ⟨row, hrow, hm⟩) fun _ h ↦ h
    exact (Ensures.bind h fun _ _ _ ↦ .pure trivial : Ensures _ _ fun _ ↦ True).sent m hm

theorem apiDeleteFlow_sent {flowId : Int} {m : Message}
    (hm : m ∈ (apiDeleteFlow app db flowId).sent) :
    ∃ row, (db.selectFlows flowId).head? = some row ∧ DeleteRule app (deriveTypes row) m := by
  unfold apiDeleteFlow at hm
  split at hm
  · simp at hm
  · rename_i row rows hrows
    have h : Ensures (DeleteRule app (deriveTypes row))
        (forEach (deleteEntries (deriveTypes row)) app.datapaths) fun _ ↦ True :=
      .forEach fun dp hdp ↦ deleteEntries_ensures hdp
    refine ⟨row, by simp [hrows], ?_⟩
    exact (Ensures.bind h fun _ _ _ ↦ .pure trivial : Ensures _ _ fun _ ↦ True).sent m hm

end NshSfc.Sent
