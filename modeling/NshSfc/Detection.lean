import NshSfc.Demo
import NshSfc.Outcomes

namespace NshSfc.Detection

open Library Library.Script Python Database OpenFlow RowMatch App Packets Controller Sent Handler
  Keys Switch Pipeline Async Provenance Outcomes

variable {app : SfcApp} {links : Links} {db : Db} {σ σ' : State} {e : Event} {flowId : ℕ}
  {row : FlowRow} {m : OFPMatch}

theorem adds_detection {n : Message} (hn : n ∈ e.sent app db) {k : FlowKey} {id : Int}
    (hadd : n.2.toMod = .add k (detectionInst id)) : e = .addFlow id := by
  cases e with
  | addFlow flowId =>
    obtain ⟨r, hr, hrule⟩ := apiAddFlow_sent hn
    cases hrule
    have hid : r.id = id := flowInstructions_metadata_inj (Mod.add.inj hadd).2
    rw [← hid, (Db.mem_selectFlows.mp hr).2]
  | deleteFlow flowId =>
    obtain ⟨r, -, hrule⟩ := apiDeleteFlow_sent hn
    cases hrule <;> cases hadd
  | handle msg fuel =>
    have hn : n ∈ (packetInHandler fuel app db msg).sent := hn
    obtain ⟨_, row, m, -, -, hrule⟩ := handler_installs hn hadd
    exact absurd rfl (InstallRule.ne_detection hrule hadd id)
  | process | enter | forward => cases hn

theorem not_touches_of_not_concerns (hm : Matched db flowId row m) (hflow : Alone db.flows row m)
    (hcon : ¬ Concerns flowId e) {n : Message} (hn : n ∈ e.sent app db) (v : Option Value) :
    ¬ n.2.toMod.Touches ⟨0, 8, (OFPMatch.fields m).set .inPort v⟩ := by
  obtain ⟨r, hr, hrcon, hrule⟩ := sent_rule hn
  have hne : deriveTypes r ≠ row := by
    rintro rfl
    exact hcon (hm.id_eq ▸ hrcon)
  exact foreign_not_touches hflow hm.common hr hne hrule v

theorem not_detection_of_not_concerns (hm : Matched db flowId row m) (hflow : Alone db.flows row m)
    (hcon : ¬ Concerns flowId e) {n : Message} (hn : n ∈ e.sent app db) :
    ¬ n.2.toMod.Touches (detectionKey m) := by
  have h := not_touches_of_not_concerns hm hflow hcon hn none
  rwa [set_inPort_none (matchCommon_inPort hm.common)] at h

theorem entry_port_inj {p q : Int} {a b : OFPMatch} (ha : matchEntryPoint p row = .ok a)
    (hb : matchEntryPoint q row = .ok b) (h : OFPMatch.fields a = OFPMatch.fields b) : p = q := by
  obtain ⟨c, hc⟩ := flowMatch_ok_of_ok ha (ethFields row)
  rw [matchEntryPoint_fields hc ha, matchEntryPoint_fields hc hb] at h
  have hport := congrFun h .inPort
  rw [Match.set_self, Match.set_self] at hport
  by_cases hp : p = 0 <;> by_cases hq : q = 0 <;> simp_all [given]

theorem adds_source (hm : Matched db flowId row m) (hflow : Alone db.flows row m) {n : Message}
    (hn : n ∈ e.sent app db) {q : Int} {loc : String} {k : FlowKey} {i : List Instruction}
    (hadd : n.2.toMod = .add k i) (hsource : SourceEntry row q loc k i) :
    ∃ msg fuel, e = .handle msg fuel ∧ msg.metadata = some flowId ∧ msg.datapath.id = n.1.id ∧
      msg.inPort = q := by
  obtain ⟨a, spi, si, src, ha, rfl, rfl⟩ := hsource
  cases e with
  | addFlow id =>
    obtain ⟨r, -, hrule⟩ := apiAddFlow_sent hn
    cases hrule
    have hactions := flowInstructions_actions_inj (Mod.add.inj hadd).2
    simp [encapActions] at hactions
  | deleteFlow id =>
    obtain ⟨r, -, hrule⟩ := apiDeleteFlow_sent hn
    cases hrule <;> cases hadd
  | handle msg fuel =>
    have hn : n ∈ (packetInHandler fuel app db msg).sent := hn
    obtain ⟨flowId', row', m', hid, hm', hrule⟩ := handler_installs hn hadd
    have hrow : row' = row := by
      obtain ⟨r, hr, hr'⟩ := hm'.head
      obtain ⟨hr, -⟩ := Db.mem_selectFlows.mp (List.mem_of_head? hr)
      by_contra hne
      refine foreign_not_touches hflow hm.common hr (hr' ▸ hne) (.install msg (hr' ▸ hrule))
        (given .int (some q)) ?_
      rw [hadd, ← matchEntryPoint_fields hm.common ha]
      exact rfl
    subst hrow
    have hid : msg.metadata = some flowId := by
      rw [hid, Int.ofNat.inj (hm'.id_eq.symm.trans hm.id_eq)]
    refine ⟨msg, fuel, rfl, hid, ?_⟩
    cases hrule with
    | source hs =>
      obtain ⟨hk, -⟩ := Mod.add.inj hadd
      exact ⟨rfl, entry_port_inj hs ha (congrArg Key.fields hk)⟩
    | chain hc =>
      cases hc with
      | middle => cases congrArg Key.priority (Mod.add.inj hadd).1
      | aware | delivery | last => cases congrArg Key.table (Mod.add.inj hadd).1
  | process | enter | forward => cases hn

theorem start_no_source {q : Int} {loc : String} {k : FlowKey} {i : List Instruction}
    (h : SourceEntry row q loc k i) (s : Int) : ¬ (start db).switches.Holds s k i := by
  obtain ⟨a, spi, si, src, -, hkey, -⟩ := h
  rintro (hk | hk)
  · have hd : DefaultEntry k i := defaultTable_iff.mp hk
    cases hd <;> cases congrArg Key.priority hkey
  · cases hk

def Cleared (σ : State) (flowId : ℕ) (m : OFPMatch) : Prop :=
  ∀ s, σ.switches.drained s (detectionKey m) ≠ some (detectionInst flowId)

theorem Cleared.step (h : Cleared σ flowId m) (hst : Step app links σ e σ')
    (hno : e ≠ .addFlow flowId) : Cleared σ' flowId m := by
  intro s hs
  rw [hst.drained] at hs
  rcases receive_eq_some hs with ⟨n, hn, -, hadd⟩ | ⟨hs, -⟩
  · exact hno (adds_detection hn hadd)
  · exact h s hs

theorem cleared_of_deletes (hb : Base app db σ) (hst : Step app links σ e σ')
    (hno : e ≠ .addFlow flowId)
    (hdel : ∀ dp ∈ app.datapaths, (dp, .delete 0 m) ∈ e.sent app σ.db) : Cleared σ' flowId m := by
  intro s hs
  rw [hst.drained] at hs
  rcases receive_eq_some hs with ⟨n, hn, -, hadd⟩ | ⟨hs, hkept⟩
  · exact hno (adds_detection hn hadd)
  · have hholds : DefaultEntry (detectionKey m) (detectionInst flowId) ∨
        ∃ r ∈ db.flows, Placed app (deriveTypes r) s (.add (detectionKey m) (detectionInst flowId)) := by
      rcases Channels.holds_of_drained hs with h | h
      · exact hb.tables s _ _ h
      · exact .inr (hb.queue s _ h)
    rcases hholds with hd | ⟨r, -, hp⟩
    · generalize hi : detectionInst flowId = i at hd
      generalize hk : detectionKey m = k at hd
      cases hd <;> cases congrArg Key.priority hk
    · obtain ⟨⟨dp, hdp, hid⟩, -⟩ := hp.connected
      exact hkept _ (hdel dp hdp) hid ⟨rfl, le_rfl⟩

/-- A flow-mod that touches the flow's detection entry is under way to switch `s`. -/
def Lagging (σ : State) (s : Int) (m : OFPMatch) : Prop :=
  ∃ n ∈ σ.switches.queue s, n.Touches (detectionKey m)

theorem tables_of_not_lagging {s : Int} (h : ¬ Lagging σ s m) :
    σ.switches.drained s (detectionKey m) = σ.switches.tables s (detectionKey m) :=
  Channels.drained_of_not_touches fun n hn ht ↦ h ⟨n, hn, ht⟩

theorem handled_pending {msg : PacketIn} {fuel : ℕ} (hst : Step app links σ (.handle msg fuel) σ') :
    msg ∈ σ.pending := by
  cases hst with
  | handle h =>
    rw [h]
    exact List.mem_append_right _ List.mem_cons_self

theorem raised (hb : Base app db σ) (hm : Derived db flowId row m) (hids : Identified db.flows flowId)
    (hst : Step app links σ e σ') {msg : PacketIn} (hmsg : msg ∈ σ'.pending)
    (hid : msg.metadata = some flowId) :
    msg ∈ σ.pending ∨ ∃ f, e = .forward msg.datapath.id msg.inPort f ∧
      msg.datapath ∈ app.datapaths ∧ msg.tableId = 2 ∧
      (σ.switches.tables msg.datapath.id).Hits 0 (f.header msg.inPort) (detectionKey m)
        (detectionInst flowId) := by
  cases hst with
  | addFlow | deleteFlow | process | enter => exact .inl hmsg
  | handle h fuel =>
    refine .inl ?_
    rw [h]
    rcases List.mem_append.mp hmsg with hmsg | hmsg
    · exact List.mem_append_left _ hmsg
    · exact List.mem_append_right _ (List.mem_cons_of_mem _ hmsg)
  | @forward s port f _ _ h _ hp =>
    rcases List.mem_append.mp hmsg with hmsg | hmsg
    · exact .inl hmsg
    · obtain ⟨htable, r, hr, hrid, m', hm', hit⟩ :=
        raised_by_detection (sound_of_base hb _) hids hp hmsg hid
      have hrow := rowOf_of_mem (Db.mem_selectFlows.mpr ⟨hr, hrid⟩) hm.rowOf
      obtain rfl : m = m' := Except.ok.inj (hm.common.symm.trans (hrow ▸ hm'))
      obtain ⟨hdp, rfl, rfl, -⟩ := raisedAt_of_mem hmsg
      exact .inr ⟨f, rfl, hdp, htable, hit⟩

section Demo

/-- The switches of `topology.py` in a row: port 1 of each has a host, port 2 leads to the previous
switch, port 3 to the next one. The first switch has no previous one and uses port 2. -/
def demoLinks : Links := fun s port ↦
  [((1, 2), (2, 2)), ((2, 2), (1, 2)), ((2, 3), (3, 2)), ((3, 2), (2, 3)), ((3, 3), (4, 2)),
    ((4, 2), (3, 3)), ((4, 3), (5, 2)), ((5, 2), ((4 : Int), (3 : Int)))].lookup (s, port)

def demoReady : State := ((start Demo.db).post (apiAddFlow Demo.app Demo.db 1).sent).process 4

def demoWaiting : State := { demoReady with pending := [Demo.packetIn] }

theorem demo_ready : Run (Step Demo.app demoLinks) (start Demo.db) [.addFlow 1, .process 4] demoReady :=
  .cons (.addFlow _ 1) (.one (.process _ 4))

theorem covers_start (db : Db) (s : Int) : (start db).switches.Covers s (keysOn [] s) := by
  rintro k i (hk | hk)
  · exact receive_listed [] s k i hk
  · cases hk

theorem covers_post {s : Int} {ks : List FlowKey} (h : σ.switches.Covers s ks) (ms : List Message) :
    (σ.post ms).switches.Covers s (ks ++ FlowTable.addedKeys (sentTo s (mods ms))) := h.post _

theorem covers_process {s : Int} {ks : List FlowKey} (h : σ.switches.Covers s ks) (s' : Int) :
    (σ.process s').switches.Covers s ks := h.process s'

def Confined (σ : State) (ids : List Int) : Prop := ∀ s n, n ∈ σ.switches.queue s → s ∈ ids

theorem confined_start (db : Db) (ids : List Int) : Confined (start db) ids := by
  intro s n hn
  cases hn

theorem Confined.post {ids : List Int} (h : Confined σ ids) {ms : List Message}
    (hms : ∀ n ∈ ms, n.1.id ∈ ids) : Confined (σ.post ms) ids := by
  intro s n hn
  rcases List.mem_append.mp hn with hn | hn
  · exact h s n hn
  · obtain ⟨n', hn', rfl, -⟩ := mem_mods.mp (mem_sentTo.mp hn)
    exact hms n' hn'

theorem Confined.process {ids : List Int} (h : Confined σ ids) (s' : Int) :
    Confined (σ.process s') ids := by
  intro s n hn
  exact h s n (Channels.mem_queue_of_process hn)

theorem Confined.not_lagging {ids : List Int} (h : Confined σ ids)
    (hempty : ∀ s ∈ ids, (σ.switches.queue s).isEmpty) (s : Int) (m : OFPMatch) :
    ¬ Lagging σ s m := by
  intro hlag
  obtain ⟨n, hn, -⟩ := hlag
  rw [List.isEmpty_iff.mp (hempty s (h s n hn))] at hn
  cases hn

theorem demo_hits : (demoReady.switches.tables 4).Hits 0 ((Frame.plain Demo.packet).header 1)
    (detectionKey Demo.flow1Match) (detectionInst 1) :=
  (covers_process (covers_post (covers_start Demo.db 4) _) 4).listed.hits (by decide +kernel)
    (by decide +kernel)

theorem demo_sound : Sound Demo.db.flows (demoReady.switches.tables 4) :=
  sound_of_base ((Base.start Demo.app Demo.db).run demo_ready) 4

theorem demo_detects {outs : List Out}
    (h : outs = [.controller 2 (writeMetadata 0 1 0xffffffff) (.plain Demo.packet)]) :
    Passes (demoReady.switches.tables 4) 1 0 0 (.plain Demo.packet) outs :=
  .goto demo_hits (run_detection _ _ 1) ((passes_table2 demo_sound).mpr h)

theorem demo_waiting : Run (Step Demo.app demoLinks) demoReady
    [.enter 4 1 Demo.packet, .forward 4 1 (.plain Demo.packet)] demoWaiting := by
  let entered : State := { demoReady with flight := [(4, 1, .plain Demo.packet)] }
  have hflight : entered.flight = [] ++ (4, 1, .plain Demo.packet) :: [] := rfl
  have hforward : Step Demo.app demoLinks entered (.forward 4 1 (.plain Demo.packet)) demoWaiting :=
    .forward hflight (demo_detects rfl) [] (by simp) [] (by simp)
  exact .cons (.enter _ rfl Demo.packet) (.one hforward)

end Demo

end NshSfc.Detection
