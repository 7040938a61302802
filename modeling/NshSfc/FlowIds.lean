import NshSfc.Detection

namespace NshSfc.FlowIds

open Library Library.Script Python Database OpenFlow RowMatch App Packets Controller Sent Handler
  Keys Switch Pipeline Async Provenance Outcomes Detection

variable {db : Db} {flows : List FlowRow} {T : SwitchTable} {p : Int} {f : Frame} {msg : PacketIn}
  {id : Int}

/-- The packet-in for a frame that hits the detection entry of flow `id` on a switch with tables
`T` and goes on from there. -/
structure Detected (id : Int) (T : SwitchTable) (p : Int) (f : Frame) (msg : PacketIn) : Prop where
  added : ∃ app db n k i, n ∈ (apiAddFlow app db id).sent ∧ n.2.toMod = .add k i ∧
    T.Hits 0 (f.header p) k i ∧ ∃ outs s, After T p outs (runInstructions p 0 0 f i) ∧
      msg ∈ packetIns app s p outs

theorem addFlow_inst {app : SfcApp} {n : Message} (hn : n ∈ (apiAddFlow app db id).sent)
    {k : FlowKey} {i : List Instruction} (hadd : n.2.toMod = .add k i) : i = detectionInst id := by
  obtain ⟨r, hr, hrule⟩ := apiAddFlow_sent hn
  have hid := (Db.mem_selectFlows.mp hr).2
  cases hrule
  rw [← hid, ← (Mod.add.inj hadd).2, deriveTypes_id]

def reportedId (id : Int) : Option ℕ :=
  reported (if id = 0 then 0 else writeMetadata 0 id 0xffffffff)

theorem Detected.metadata (h : Detected id T p f msg) (hT : Sound flows T) :
    msg.tableId = 2 ∧ msg.metadata = reportedId id := by
  obtain ⟨app, db, n, k, i, hn, hadd, -, outs, s, hafter, hmsg⟩ := h.added
  rw [addFlow_inst hn hadd, run_detection] at hafter
  obtain ⟨outs', rfl, hp⟩ := hafter
  obtain rfl := (passes_table2 hT).mp hp
  obtain ⟨md, g, hout, hmd⟩ := (raisedAt_of_mem hmsg).sent
  obtain ⟨htable, rfl, rfl⟩ := Out.controller.inj (List.mem_singleton.mp hout)
  exact ⟨htable, hmd⟩

theorem reportedId_eq_some {flowId : ℕ} :
    reportedId id = some flowId ↔ id % 2 ^ 32 = flowId ∧ flowId ≠ 0 := by
  have hval := writeMetadata_toNat id
  unfold reportedId reported
  by_cases hid : id = 0
  · subst hid
    simp
    omega
  · rw [if_neg hid]
    by_cases hmd : writeMetadata 0 id 0xffffffff = 0
    · have hzero : (writeMetadata 0 id 0xffffffff).toNat = 0 := by rw [hmd]; rfl
      rw [if_pos hmd]
      simp
      omega
    · have hne : (writeMetadata 0 id 0xffffffff).toNat ≠ 0 := fun h ↦ hmd (BitVec.eq_of_toNat_eq h)
      rw [if_neg hmd, Option.some.injEq]
      omega

/-- The handler selects the row of flow `id`, and all that it sends is for this flow. -/
structure Survives (db : Db) (msg : PacketIn) (id : Int) : Prop where
  selected : ∃ flowId row, msg.metadata = some flowId ∧ (db.selectFlows flowId).head? = some row ∧
    row.id = id
  own : ∀ app fuel, ∀ n ∈ (packetInHandler fuel app db msg).sent,
    ∃ row ∈ db.flows, row.id = id ∧ Rule app (deriveTypes row) n

theorem survives_of_inRange (hid : 0 < id ∧ id < 2 ^ 32) (hmd : msg.metadata = reportedId id)
    {row : FlowRow} (hrow : row ∈ db.flows) (hrowid : row.id = id) : Survives db msg id := by
  obtain ⟨flowId, rfl⟩ : ∃ n : ℕ, id = n := ⟨id.toNat, by omega⟩
  have hmd : msg.metadata = some flowId := by
    rw [hmd, reportedId_eq_some]
    omega
  refine ⟨⟨flowId, row, hmd, ?_, hrowid⟩, ?_⟩
  · rw [← hrowid, Db.selectFlows_eq_singleton hrow]
    rfl
  · intro app fuel n hn
    have hn : n ∈ (Event.handle msg fuel).sent app db := hn
    obtain ⟨r, hr, hconcerns, hrule⟩ := sent_rule hn
    cases hconcerns with
    | handle hid hrid =>
      have heq := Option.some.inj (hid.symm.trans hmd)
      exact ⟨r, hr, by rw [← hrid, heq], hrule⟩

theorem inRange_of_survives (hmd : msg.metadata = reportedId id) (h : Survives db msg id) :
    0 < id ∧ id < 2 ^ 32 := by
  obtain ⟨flowId, row, hid, hsel, hrow⟩ := h.selected
  have hrowid := (Db.mem_selectFlows.mp (List.mem_of_head? hsel)).2
  have hbits := reportedId_eq_some.mp (hmd.symm.trans hid)
  omega

/-- A flow's id comes back from the switch exactly if it is positive and has at most 32 bits. -/
theorem survives_iff (hT : Sound flows T) (h : Detected id T p f msg)
    (hrow : ∃ row ∈ db.flows, row.id = id) : Survives db msg id ↔ 0 < id ∧ id < 2 ^ 32 := by
  obtain ⟨-, hmd⟩ := h.metadata hT
  obtain ⟨row, hrow, hid⟩ := hrow
  exact ⟨inRange_of_survives hmd, fun hrange ↦ survives_of_inRange hrange hmd hrow hid⟩

section Demo

theorem detected_after_add {app : SfcApp} {row : FlowRow} {m : OFPMatch} {dp : Datapath}
    (hrow : row ∈ db.selectFlows id) (hm : matchAdd (deriveTypes row) = .ok m) (hp : m.packs)
    (hid : 0 ≤ id) (hdp : dp ∈ app.datapaths) (hT : Sound flows T)
    (hit : T.Hits 0 (f.header p) (detectionKey m) (detectionInst id)) {pkt : Packet}
    (hseen : seen f = some pkt) : Detected id T p f ⟨dp, p, 2, reportedId id, pkt⟩ := by
  have hsent : (dp, .add 0 8 m (detectionInst id)) ∈ (apiAddFlow app db id).sent := by
    rw [apiAddFlow_eq hrow hm hp hid]
    exact List.mem_map.mpr ⟨dp, hdp, rfl⟩
  let outs : List Out := [.controller 2 (if id = 0 then 0 else writeMetadata 0 id 0xffffffff) f]
  refine ⟨app, db, _, _, _, hsent, rfl, hit, outs, dp.id, ?_, ?_⟩
  · rw [run_detection]
    exact ⟨_, rfl, (passes_table2 hT).mpr rfl⟩
  · refine List.mem_flatMap.mpr ⟨dp, by simp [hdp], ?_⟩
    simp [outs, packetIn, hseen, reportedId]

theorem survives_demo : Survives Demo.db Demo.packetIn 1 := by
  have hrow : Demo.flow1 ∈ Demo.db.selectFlows 1 := by decide
  have hdp : (⟨4, 0⟩ : Datapath) ∈ Demo.app.datapaths := by decide
  have h := detected_after_add hrow Demo.flow1_common rfl (by decide) hdp demo_sound demo_hits
    (rfl : seen (.plain Demo.packet) = some Demo.packet)
  exact (survives_iff demo_sound h ⟨Demo.flow1, by decide, rfl⟩).mpr (by decide)

def wideDb : Db where
  flows := [Demo.flow 1 "10.0.0.1" "10.0.0.2" 7, Demo.flow 4294967297 "10.0.0.4" "10.0.0.5" 6]
  flows_id := by decide
  service := Demo.db.service
  vnf := Demo.db.vnf

def wideReady : State :=
  ((start wideDb).post (apiAddFlow Demo.app wideDb 4294967297).sent).process 4

theorem wide_sound : Sound wideDb.flows (wideReady.switches.tables 4) := by
  have hrun : Run (Step Demo.app demoLinks) (start wideDb) [.addFlow 4294967297, .process 4] wideReady :=
    .cons (.addFlow _ 4294967297) (.one (.process _ 4))
  exact sound_of_base ((Base.start Demo.app wideDb).run hrun) 4

/-- A packet of the flow with id 2 ^ 32 + 1 is taken for one of flow 1. -/
theorem wide_id_confused : Sound wideDb.flows (wideReady.switches.tables 4) ∧
    Detected 4294967297 (wideReady.switches.tables 4) 1 (.plain Demo.packet) Demo.packetIn ∧
    (wideDb.selectFlows 1).head? = some (Demo.flow 1 "10.0.0.1" "10.0.0.2" 7) ∧
    Demo.packetIn.metadata = some 1 ∧ ¬ Survives wideDb Demo.packetIn 4294967297 := by
  have hrow : Demo.flow 4294967297 "10.0.0.4" "10.0.0.5" 6 ∈ wideDb.selectFlows 4294967297 := by decide
  have hdp : (⟨4, 0⟩ : Datapath) ∈ Demo.app.datapaths := by decide
  have hit : (wideReady.switches.tables 4).Hits 0 ((Frame.plain Demo.packet).header 1)
      (detectionKey Demo.flow1Match) (detectionInst 4294967297) :=
    (covers_process (covers_post (covers_start wideDb 4) _) 4).listed.hits (by decide +kernel)
      (by decide +kernel)
  have hmatch : matchAdd (deriveTypes (Demo.flow 4294967297 "10.0.0.4" "10.0.0.5" 6)) =
      .ok Demo.flow1Match := flowMatch_ok.mpr ⟨0x0A000004, 0x0A000005, by decide, by decide, by decide⟩
  have h := detected_after_add hrow hmatch rfl (by decide) hdp wide_sound hit
    (rfl : seen (.plain Demo.packet) = some Demo.packet)
  have hid : reportedId 4294967297 = some 1 := by decide
  rw [hid] at h
  refine ⟨wide_sound, h, by decide, rfl, fun hs ↦ ?_⟩
  have hrange := inRange_of_survives hid.symm hs
  omega

end Demo

end NshSfc.FlowIds
