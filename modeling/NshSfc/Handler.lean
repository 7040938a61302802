import NshSfc.Sent

namespace NshSfc.Handler

open Library Library.Script Python Database OpenFlow RowMatch App Packets Controller Sent

variable {app : SfcApp} {db : Db} {msg : PacketIn} {flowId : ℕ} {row : FlowRow} {m : OFPMatch}

structure Derived (db : Db) (flowId : ℕ) (row : FlowRow) (m : OFPMatch) : Prop where
  rowOf : RowOf db flowId row
  common : matchCommon row = .ok m

structure Matched (db : Db) (flowId : ℕ) (row : FlowRow) (m : OFPMatch) : Prop
    extends Derived db flowId row m where
  packs : m.packs

def FirstFound (db : Db) (msg : PacketIn) (row : FlowRow) : Prop :=
  ∃ vnfId loc dpid inPort spi, row.serviceId = some spi ∧
    (firstVnf db msg row.serviceId).result = .ok (vnfId, some loc, dpid, inPort)

def deletions (app : SfcApp) (m : OFPMatch) : List Message :=
  app.datapaths.map fun dp ↦ (dp, .delete 0 m)

theorem mem_deletions {n : Message} :
    n ∈ deletions app m ↔ ∃ dp ∈ app.datapaths, n = (dp, .delete 0 m) := by
  simp [deletions, eq_comm]

theorem mem_of_add {rest : List Message} {n : Message} {k : FlowKey} {i : List Instruction}
    (h : n ∈ deletions app m ++ rest) (hadd : n.2.toMod = .add k i) : n ∈ rest := by
  rcases List.mem_append.mp h with h | h
  · obtain ⟨dp, -, rfl⟩ := mem_deletions.mp h
    cases hadd
  · exact h

theorem Derived.head (h : Derived db flowId row m) :
    ∃ r, (db.selectFlows flowId).head? = some r ∧ deriveTypes r = row := by
  simpa [RowOf] using h.rowOf

theorem Derived.id_eq (h : Derived db flowId row m) : row.id = flowId := by
  obtain ⟨r, hr, rfl⟩ := h.head
  exact (Db.mem_selectFlows.mp (List.mem_of_head? hr)).2

theorem rowOf_of_mem {r : FlowRow} (h : r ∈ db.selectFlows flowId) (hrow : RowOf db flowId row) :
    deriveTypes r = row := by
  obtain ⟨hr, hid⟩ := Db.mem_selectFlows.mp h
  rw [RowOf, ← hid, Db.selectFlows_eq_singleton hr] at hrow
  exact Option.some.inj hrow

theorem Derived.exists_entry (h : Derived db flowId row m) (p : Int) :
    ∃ entry, matchEntryPoint p row = .ok entry := flowMatch_ok_of_ok h.common _

theorem Derived.unique {row' : FlowRow} {m' : OFPMatch} (h : Derived db flowId row m)
    (h' : Derived db flowId row' m') : row = row' ∧ m = m' := by
  have hrow : row = row' := Option.some.inj (h.rowOf.symm.trans h'.rowOf)
  subst hrow
  exact ⟨rfl, Except.ok.inj (h.common.symm.trans h'.common)⟩

theorem not_matched_iff : (¬ ∃ row m, Matched db flowId row m) ↔
    ∀ row, (db.selectFlows flowId).head? = some row →
      ∀ m, matchCommon (deriveTypes row) = .ok m → ¬ m.packs := by
  constructor
  · intro h row hrow m hm hp
    exact h ⟨deriveTypes row, m, ⟨by simp [RowOf, hrow], hm⟩, hp⟩
  · rintro h ⟨row, m, hm⟩
    obtain ⟨r, hr, rfl⟩ := hm.head
    exact h r hr m hm.common hm.packs

theorem addFlow_matched {c : OFPMatch} (hc : Matched db flowId row c) {e : OFPMatch} (he : e.packs)
    (dp : Datapath) (priority : ℕ) (actions : List Action) (tableId : ℕ) (gotoId : Option ℕ) :
    addFlow dp priority e actions tableId (some row.id) gotoId =
      .send (dp, .add tableId priority e (flowInstructions actions (some row.id) gotoId)) := by
  refine addFlow_of_packs he ?_ priority actions tableId gotoId
  rintro n ⟨⟩
  rw [hc.id_eq]
  exact Int.natCast_nonneg flowId

theorem apiAddFlow_eq {id : Int} {r : FlowRow} (hr : r ∈ db.selectFlows id)
    (hm : matchAdd (deriveTypes r) = .ok m) (hp : m.packs) (hnonneg : 0 ≤ id) :
    apiAddFlow app db id =
      ⟨app.datapaths.map fun dp ↦ (dp, .add 0 8 m (detectionInst id)), .ok 200⟩ := by
  obtain ⟨hmem, hid⟩ := Db.mem_selectFlows.mp hr
  have hsel : db.selectFlows id = [r] := hid ▸ Db.selectFlows_eq_singleton hmem
  have hsome : ∀ n ∈ some id, 0 ≤ n := by
    rintro n ⟨⟩
    exact hnonneg
  have hbody : ∀ dp, addDetection (deriveTypes r) dp =
      .send (dp, .add 0 8 m (detectionInst id)) := by
    intro dp
    simp only [addDetection, hm, py_ok, Script.pure_bind, deriveTypes_id, hid]
    exact addFlow_of_packs hp hsome ..
  have hloop : forEach (addDetection (deriveTypes r)) app.datapaths =
      ⟨app.datapaths.map fun dp ↦ (dp, .add 0 8 m (detectionInst id)), .ok ()⟩ := by
    rw [forEach_of_ok]
    · simp [hbody, ← List.map_eq_flatMap]
    · intro dp _
      rw [hbody]
      rfl
  simp only [apiAddFlow, hsel, forEach_cons, hloop]
  rw [bind_of_ok rfl, bind_of_ok rfl]
  simp [forEach]

theorem deleteEntries_eq {r : FlowRow} (hm : matchDel (deriveTypes r) = .ok m) (hp : m.packs)
    {spi : Int} (hspi : r.serviceId = some spi) (dp : Datapath) : deleteEntries (deriveTypes r) dp =
      ⟨[(dp, .delete 0 m), (dp, .delete 0 (matchSpi spi))], .ok ()⟩ := by
  simp only [deleteEntries, hm, deriveTypes_serviceId, hspi, intOfColumn, py_ok, Script.pure_bind,
    delFlow_of_packs hp, delFlow_of_packs (m := matchSpi spi) rfl]
  rfl

theorem apiDeleteFlow_eq {id : Int} {r : FlowRow} (hr : r ∈ db.selectFlows id)
    (hm : matchDel (deriveTypes r) = .ok m) (hp : m.packs) {spi : Int}
    (hspi : r.serviceId = some spi) : apiDeleteFlow app db id = ⟨app.datapaths.flatMap fun dp ↦
      [(dp, .delete 0 m), (dp, .delete 0 (matchSpi spi))], .ok 200⟩ := by
  obtain ⟨hmem, hid⟩ := Db.mem_selectFlows.mp hr
  have hsel : db.selectFlows id = [r] := hid ▸ Db.selectFlows_eq_singleton hmem
  simp only [apiDeleteFlow, hsel]
  rw [forEach_of_ok _ fun dp _ ↦ by rw [deleteEntries_eq hm hp hspi], bind_of_ok rfl]
  simp [deleteEntries_eq hm hp hspi]

theorem delete_sent (hm : Matched db flowId row m) {spi : Int} (hspi : row.serviceId = some spi)
    {dp : Datapath} (hdp : dp ∈ app.datapaths) :
    (dp, .delete 0 m) ∈ (apiDeleteFlow app db flowId).sent := by
  obtain ⟨r, hr, rfl⟩ := hm.head
  rw [apiDeleteFlow_eq (List.mem_of_head? hr) hm.common hm.packs hspi]
  exact List.mem_flatMap.mpr ⟨dp, hdp, List.mem_cons_self⟩

theorem activate_deletes_first (hid : msg.metadata = some flowId) (fuel : ℕ) :
    (activate fuel app db msg).sent = [] ∨ ∃ row m rest, Matched db flowId row m ∧
      (activate fuel app db msg).sent = deletions app m ++ rest ∧
      ∀ n ∈ rest, InstallRule app msg row n := by
  by_cases ht : msg.tableId = 2
  swap
  · simp [activate, hid, ht]
  cases hs : db.selectFlows flowId with
  | nil => exact .inl (by simp only [activate, hid, ht, if_true, hs]; rfl)
  | cons r rows =>
    cases he : matchEntryPoint msg.inPort (deriveTypes r) with
    | error e =>
      refine .inl ?_
      simp only [activate, hid, ht, if_true, hs, fetchone, Script.pure_bind, he]
      rfl
    | ok entry =>
      obtain ⟨m, hm⟩ := flowMatch_ok_of_ok he (ethFields (deriveTypes r))
      have hm : matchCommon (deriveTypes r) = .ok m := hm
      have hrow : RowOf db flowId (deriveTypes r) := by simp [RowOf, hs]
      by_cases hp : m.packs
      · rw [activate_table2 hid ht (by rw [hs]; rfl) he hm hp]
        exact .inr ⟨deriveTypes r, m, _, ⟨⟨hrow, hm⟩, hp⟩, rfl, (install_ensures fuel hrow he).sent⟩
      · obtain ⟨e, -, hraise⟩ := activate_not_packs app hid ht (by rw [hs]; rfl) he hm hp
        exact .inl (by rw [hraise fuel]; rfl)

theorem register_sent : (register db msg).sent = [] := by
  unfold register
  split
  · split
    · rfl
    · split <;> rfl
  · rfl

theorem register_earlier {db' : Db} (h : (register db msg).result = .ok db') : Earlier db db' := by
  unfold register at h
  split at h
  · split at h
    · cases h
    · split at h
      · rw [← Except.ok.inj h]
        exact .refl db
      · rw [← Except.ok.inj h]
        exact .insertVnf db _
  · rw [← Except.ok.inj h]
    exact .refl db

theorem handler_sent_of_registered {db' : Db} (h : (register db msg).result = .ok db') (fuel : ℕ) :
    (packetInHandler fuel app db msg).sent = (activate fuel app db' msg).sent := by
  rw [packetInHandler, bind_of_ok h, register_sent]
  generalize activate fuel app db' msg = x
  cases hc : (catching isKeyError x).result with
  | ok a => simp [bind_of_ok hc]
  | error e => simp [bind_of_error hc]

theorem handler_sent_cases (app : SfcApp) (db : Db) (msg : PacketIn) (fuel : ℕ) :
    (packetInHandler fuel app db msg).sent = [] ∨ ∃ db', (register db msg).result = .ok db' ∧
      (packetInHandler fuel app db msg).sent = (activate fuel app db' msg).sent := by
  cases hr : (register db msg).result with
  | error e =>
    rw [packetInHandler, bind_of_error hr]
    exact .inl register_sent
  | ok db' => exact .inr ⟨db', rfl, handler_sent_of_registered hr fuel⟩

theorem Matched.of_flows {db' : Db} (hflows : db'.selectFlows flowId = db.selectFlows flowId)
    (hm : Matched db flowId row m) : Matched db' flowId row m :=
  ⟨⟨by rw [RowOf, hflows]; exact hm.rowOf, hm.common⟩, hm.packs⟩

/-- Whatever the event is, either nothing is sent, or the deletions for the flow it names go to
every connected switch before any entry is installed. -/
theorem handler_deletes_first (app : SfcApp) (db : Db) (msg : PacketIn) (fuel : ℕ) :
    (packetInHandler fuel app db msg).sent = [] ∨
    ∃ flowId row m rest, msg.metadata = some flowId ∧ Matched db flowId row m ∧
      (packetInHandler fuel app db msg).sent = deletions app m ++ rest ∧
      ∀ n ∈ rest, InstallRule app msg row n := by
  rcases handler_sent_cases app db msg fuel with hnil | ⟨db', hreg, hsent⟩
  · exact .inl hnil
  rw [hsent]
  cases hid : msg.metadata with
  | none => exact .inl (by simp [activate, hid])
  | some flowId =>
    rcases activate_deletes_first hid fuel with h | ⟨row, m, rest, hm, h, hrest⟩
    · exact .inl h
    · exact .inr ⟨flowId, row, m, rest, rfl, hm.of_flows ((register_earlier hreg).selectFlows _).symm, h, hrest⟩

theorem InstallRule.exists_add {n : Message} (h : InstallRule app msg row n) :
    ∃ dp t p m a i g, n = (dp, .add t p m (flowInstructions a i g)) ∧ a ≠ [] := by
  rcases h with ⟨_, _⟩ | ⟨_ | _ | _ | _⟩ <;> exact ⟨_, _, _, _, _, _, _, rfl, by simp [encapActions]⟩

theorem InstallRule.ne_detection {n : Message} {k : FlowKey} {i : List Instruction}
    (h : InstallRule app msg row n) (hadd : n.2.toMod = .add k i) (id : Int) :
    i ≠ detectionInst id := by
  obtain ⟨dp, t, p, m, a, i', g, rfl, ha⟩ := InstallRule.exists_add h
  have hi : flowInstructions a i' g = i := (Mod.add.inj hadd).2
  intro hdet
  exact ha (flowInstructions_actions_inj (hi.trans hdet))

theorem InstallRule.datapath_mem {n : Message} (h : InstallRule app msg row n)
    (hdp : msg.datapath ∈ app.datapaths) : n.1 ∈ app.datapaths := by
  rcases h with ⟨_, _⟩ | ⟨h | h | h | h⟩
  · exact hdp
  all_goals exact h

theorem InstallRule.service {n : Message} (h : InstallRule app msg row n) :
    ∃ spi, row.serviceId = some spi := by
  rcases h with ⟨_, hspi⟩ | ⟨⟨_, hspi⟩ | ⟨_, hspi⟩ | ⟨_, hspi⟩ | ⟨_, hspi⟩⟩ <;> exact ⟨_, hspi⟩

theorem handler_sends {fuel : ℕ} {n : Message} (hn : n ∈ (packetInHandler fuel app db msg).sent) :
    ∃ flowId row m, msg.metadata = some flowId ∧ Matched db flowId row m ∧
      ((∃ dp ∈ app.datapaths, n = (dp, .delete 0 m)) ∨ InstallRule app msg row n) := by
  rcases handler_deletes_first app db msg fuel with
    hnil | ⟨flowId, row, m, rest, hid, hm, hsent, hrest⟩
  · rw [hnil] at hn
    cases hn
  · rw [hsent] at hn
    refine ⟨flowId, row, m, hid, hm, ?_⟩
    rcases List.mem_append.mp hn with hn | hn
    · exact .inl (mem_deletions.mp hn)
    · exact .inr (hrest n hn)

theorem handler_installs {fuel : ℕ} {n : Message} (hn : n ∈ (packetInHandler fuel app db msg).sent)
    {k : FlowKey} {i : List Instruction} (hadd : n.2.toMod = .add k i) :
    ∃ flowId row m, msg.metadata = some flowId ∧ Matched db flowId row m ∧
      InstallRule app msg row n := by
  obtain ⟨flowId, row, m, hid, hm, ⟨dp, -, rfl⟩ | hrule⟩ := handler_sends hn
  · cases hadd
  · exact ⟨flowId, row, m, hid, hm, hrule⟩

theorem sent_of_not_matched (h : OfFlow app flowId msg)
    (hnot : ¬ ∃ row m, Matched db flowId row m) (fuel : ℕ) :
    (packetInHandler fuel app db msg).sent = [] := by
  obtain ⟨e, -, hraise⟩ := activate_stopped h (not_matched_iff.mp hnot)
  rw [handler_sent h.notRegistration, hraise fuel, raise_sent]

theorem sent_eq (h : OfFlow app flowId msg) (hm : Matched db flowId row m) {entry : OFPMatch}
    (hentry : matchEntryPoint msg.inPort row = .ok entry) (fuel : ℕ) :
    (packetInHandler fuel app db msg).sent =
      deletions app m ++ (install fuel app db msg flowId row entry).sent := by
  obtain ⟨r, hr, rfl⟩ := hm.head
  rw [handler_sent h.notRegistration, activate_eq h hr hentry hm.common hm.packs]
  rfl

theorem sent_of_not_found (h : OfFlow app flowId msg) (hm : Matched db flowId row m)
    (hnot : ¬ FirstFound db msg row) (fuel : ℕ) :
    (packetInHandler fuel app db msg).sent = deletions app m := by
  obtain ⟨entry, hentry⟩ := hm.exists_entry msg.inPort
  rw [sent_eq h hm hentry]
  rcases install_cases app db msg flowId row entry with ⟨e, -, he⟩ | hf
  · rw [he, raise_sent, List.append_nil]
  · exact absurd hf hnot

end NshSfc.Handler
