import NshSfc.Detection

namespace NshSfc.Reroot

open Library Library.Script Python Database OpenFlow RowMatch App Packets Controller Sent Handler
  Keys Switch Pipeline Async Provenance Outcomes Detection

variable {app : SfcApp} {links : Links} {db : Db} {σ σ' : State} {e : Event} {flowId : ℕ}
  {row : FlowRow} {m : OFPMatch} {H : Set (Int × Int)}

def SourcesIn (H : Set (Int × Int)) (row : FlowRow) (σ : State) : Prop :=
  ∀ s q loc k i, SourceEntry row q loc k i → σ.switches.Holds s k i → (s, q) ∈ H

theorem SourcesIn.step_of_sent (h : SourcesIn H row σ) (hst : Step app links σ e σ')
    (hsent : ∀ n ∈ e.sent app σ.db, ∀ q loc k i, SourceEntry row q loc k i → n.2.toMod = .add k i →
      (n.1.id, q) ∈ H) : SourcesIn H row σ' := by
  intro s q loc k i hsource hk
  rcases hst.holds hk with hk | ⟨n, hn, rfl, hadd⟩
  · exact h s q loc k i hsource hk
  · exact hsent n hn q loc k i hsource hadd

theorem SourcesIn.step {S : Set (Int × Int)} (h : SourcesIn S row σ) (hb : Base app db σ)
    (hm : Matched db flowId row m) (hflow : Alone db.flows row m) (hst : Step app links σ e σ')
    (hhandled : ∀ msg fuel, e = .handle msg fuel → msg.metadata = some flowId →
      (msg.datapath.id, msg.inPort) ∈ S) : SourcesIn S row σ' := by
  refine h.step_of_sent hst fun n hn q loc k i hsource hadd ↦ ?_
  rw [← hb.flows] at hflow
  obtain ⟨msg, fuel, rfl, hid, hs, rfl⟩ := adds_source (hb.matched hm) hflow hn hadd hsource
  exact hs ▸ hhandled msg fuel rfl hid

theorem plain_of_le (hm : Matched db flowId row m)
    (hne : OFPMatch.fields m .ethType ≠ some (.int 0x894F)) {f : Frame} {p : Int}
    (hle : OFPMatch.fields m ≤ f.header p) : ∃ pkt, f = .plain pkt ∧ FlowPacket m pkt := by
  obtain ⟨r, -, rfl⟩ := hm.head
  obtain ⟨t, ht⟩ := matchCommon_ethType hm.common
  have htype := hle .ethType _ ht
  rw [ht] at hne
  cases f with
  | plain pkt =>
    refine ⟨pkt, rfl, (le_header_of_inPort_none _ _ (matchCommon_inPort hm.common)).mp hle, ?_⟩
    intro hpkt
    have hval : some (Value.int pkt.ethType) = some (.int t) := htype
    exact hne (hval.symm.trans (by rw [hpkt]))
  | nsh => cases htype
  | ether => exact absurd htype.symm hne

/-- A flow whose packets enter the network at the ports in `H` of connected switches. -/
structure Entering (app : SfcApp) (db : Db) (flowId : ℕ) (row : FlowRow) (m : OFPMatch)
    (H : Set (Int × Int)) : Prop where
  matched : Matched db flowId row m
  alone : Alone db.flows row m
  ethType : OFPMatch.fields m .ethType ≠ some (.int 0x894F)
  identified : Identified db.flows flowId
  service : ∃ spi, row.serviceId = some spi
  ports : ∀ a ∈ H, a.2 ≠ 0 ∧ ∃ dp ∈ app.datapaths, dp.id = a.1

/-- The flow is added on every connected switch and not active: every switch detects it, there
are no source entries for it, and its packets have not got further than the ports where they enter. -/
structure Fresh (app : SfcApp) (H : Set (Int × Int)) (flowId : ℕ) (row : FlowRow) (m : OFPMatch)
    (σ : State) : Prop where
  detects : ∀ dp ∈ app.datapaths,
    σ.switches.tables dp.id (detectionKey m) = some (detectionInst flowId)
  untouched : ∀ s, ¬ Lagging σ s m
  sources : SourcesIn ∅ row σ
  flight : ∀ a ∈ σ.flight, FlowPacket m (payload a.2.2) →
    (∃ pkt, a.2.2 = .plain pkt) ∧ (a.1, a.2.1) ∈ H
  handed : ∀ a ∈ σ.handed, ¬ FlowPacket m a.2.2

/-- Packets of the flow enter at the ports in `H`, or come back from a host that was handed one.
Elsewhere they are forwarded by switches that have processed the flow-mods for the flow's
detection entry. The flow is not added once more. -/
inductive Careful (H : Set (Int × Int)) (flowId : ℕ) (m : OFPMatch) (σ : State) : Event → Prop
  | addFlow {id : Int} (h : id ≠ flowId) : Careful H flowId m σ (.addFlow id)
  | deleteFlow (id : Int) : Careful H flowId m σ (.deleteFlow id)
  | handle (msg : PacketIn) (fuel : ℕ) : Careful H flowId m σ (.handle msg fuel)
  | process (s : Int) : Careful H flowId m σ (.process s)
  | enter {s p : Int} {pkt : Packet} (h : FlowPacket m pkt → (s, p) ∈ H ∨
      ∃ pkt', FlowPacket m pkt' ∧ (s, p, pkt') ∈ σ.handed) :
      Careful H flowId m σ (.enter s p pkt)
  | forward {s p : Int} {f : Frame} (h : ∀ pkt, f = .plain pkt → FlowPacket m pkt →
      (s, p) ∈ H ∨ ¬ Lagging σ s m) : Careful H flowId m σ (.forward s p f)

theorem Fresh.passes (h : Fresh app H flowId row m σ) (hE : Entering app db flowId row m H)
    (hb : Base app db σ) {s p : Int} {f : Frame} {outs : List Out}
    (hf : (s, p, f) ∈ σ.flight) (hp : Passes (σ.switches.tables s) p 0 0 f outs) :
    (Forwards (payload f) outs ∧ ¬ FlowPacket m (payload f)) ∨
      ∃ md, outs = [.controller 2 md f] := by
  have hT := sound_of_base hb s
  by_cases hpkt : FlowPacket m (payload f)
  · obtain ⟨⟨pkt, rfl⟩, hmem⟩ := h.flight _ hf hpkt
    obtain ⟨-, dp, hdp, rfl⟩ := hE.ports _ hmem
    have happlies : (σ.switches.tables dp.id).Applies 0 ((Frame.plain pkt).header p)
        (detectionKey m) (detectionInst flowId) :=
      ⟨h.detects dp hdp, rfl,
        (le_header_of_inPort_none _ _ (matchCommon_inPort hE.matched.common)).mpr hpkt.le⟩
    rcases guarded_passes hT hE.alone hpkt happlies rfl hp with
      hc | ⟨q, loc, k, i, spi, si, src, hsource, hit, -⟩
    · exact .inr hc
    · exact absurd (h.sources _ _ _ _ _ hsource (.inl hit.entry)) (Set.notMem_empty _)
  · rcases passes_table0 hT hp with hfwd | ⟨md, hc, -⟩
    · exact .inl ⟨hfwd, hpkt⟩
    · exact .inr ⟨md, hc⟩

theorem Fresh.leaves (h : Fresh app H flowId row m σ) (hE : Entering app db flowId row m H)
    (hb : Base app db σ) {s p : Int} {f : Frame} {outs : List Out} (hf : (s, p, f) ∈ σ.flight)
    (hp : Passes (σ.switches.tables s) p 0 0 f outs) {n : Int} {g : Frame}
    (hleaves : Leaves outs n g) : ¬ FlowPacket m (payload g) := by
  rcases h.passes hE hb hf hp with ⟨hfwd, hpkt⟩ | ⟨md, rfl⟩
  · rwa [hfwd.leaves hleaves]
  · cases hleaves with
    | port hout => cases List.mem_singleton.mp hout
    | normal hout => cases List.mem_singleton.mp hout

theorem Fresh.step_of_untouched (h : Fresh app H flowId row m σ) (hE : Entering app db flowId row m H)
    (hb : Base app db σ) (hst : Step app links σ e σ') (hc : Careful H flowId m σ e)
    (hsent : ∀ n ∈ e.sent app σ.db, ¬ n.2.toMod.Touches (detectionKey m))
    (hsources : SourcesIn ∅ row σ') : Fresh app H flowId row m σ' := by
  refine ⟨?_, ?_, hsources, ?_, ?_⟩
  · intro dp hdp
    have hkept := hst.kept fun n hn ht ↦ h.untouched dp.id ⟨n, hn, ht⟩
    rw [hkept, h.detects dp hdp]
  · rintro s ⟨n, hn, ht⟩
    rcases hst.queue hn with hn | ⟨n', hn', -, rfl⟩
    · exact h.untouched s ⟨n, hn, ht⟩
    · exact hsent n' hn' ht
  · cases hst with
    | addFlow | deleteFlow | handle | process => exact h.flight
    | enter hlink pkt =>
      intro a ha hpkt
      rcases List.mem_cons.mp ha with rfl | ha
      · cases hc with
        | enter hin =>
          rcases hin hpkt with hmem | ⟨pkt', hpkt', hhanded⟩
          · exact ⟨⟨pkt, rfl⟩, hmem⟩
          · exact absurd hpkt' (h.handed _ hhanded)
      · exact h.flight a ha hpkt
    | @forward s port f before after hf outs hp arrivals harr handed hhand =>
      have hmem : (s, port, f) ∈ before ++ (s, port, f) :: after :=
        List.mem_append_right _ List.mem_cons_self
      intro a ha hpkt
      rcases List.mem_append.mp ha with ha | ha
      · refine h.flight a ?_ hpkt
        rw [hf]
        rcases List.mem_append.mp ha with ha | ha
        · exact List.mem_append_left _ ha
        · exact List.mem_append_right _ (List.mem_cons_of_mem _ ha)
      · obtain ⟨n, hleaves, -⟩ := harr a ha
        exact absurd hpkt (h.leaves hE hb (hf ▸ hmem) hp hleaves)
  · cases hst with
    | addFlow | deleteFlow | handle | process | enter => exact h.handed
    | @forward s port f before after hf outs hp arrivals harr handed hhand =>
      have hmem : (s, port, f) ∈ before ++ (s, port, f) :: after :=
        List.mem_append_right _ List.mem_cons_self
      intro a ha
      rcases List.mem_append.mp ha with ha | ha
      · exact h.handed a ha
      · obtain ⟨-, hleaves, -⟩ := hhand a ha
        exact h.leaves hE hb (hf ▸ hmem) hp hleaves

theorem Fresh.step (h : Fresh app H flowId row m σ) (hE : Entering app db flowId row m H)
    (hb : Base app db σ) (hst : Step app links σ e σ') (hc : Careful H flowId m σ e) :
    Fresh app H flowId row m σ' ∨ Cleared σ' flowId m := by
  have hm := hb.matched hE.matched
  have hflow : Alone σ.db.flows row m := hb.flows ▸ hE.alone
  by_cases hcon : Concerns flowId e
  swap
  · refine .inl (h.step_of_untouched hE hb hst hc
      (fun n hn ↦ not_detection_of_not_concerns hm hflow hcon hn) ?_)
    refine h.sources.step hb hE.matched hE.alone hst ?_
    rintro msg fuel rfl hid
    exact absurd (.handle hid rfl fuel) hcon
  cases hcon with
  | addFlow =>
    cases hc with
    | addFlow hne => exact absurd rfl hne
  | deleteFlow =>
    obtain ⟨spi, hspi⟩ := hE.service
    exact .inr (cleared_of_deletes hb hst (by simp) fun dp hdp ↦ delete_sent hm hspi hdp)
  | @handle msg flowId' hid hid' fuel =>
    obtain rfl := Int.ofNat.inj hid'
    rcases handler_deletes_first app σ.db msg fuel with
      hnil | ⟨flowId'', row', m', rest, hid'', hm', hsent, -⟩
    · have hnone : ∀ n, n ∉ (Event.handle msg fuel).sent app σ.db := by
        simp [Event.sent, hnil]
      refine .inl (h.step_of_untouched hE hb hst hc (fun n hn ↦ absurd hn (hnone n)) ?_)
      exact h.sources.step_of_sent hst fun n hn ↦ absurd hn (hnone n)
    · obtain rfl := Option.some.inj (hid.symm.trans hid'')
      obtain ⟨-, rfl⟩ := hm.unique hm'.toDerived
      refine .inr (cleared_of_deletes hb hst (by simp) fun dp hdp ↦ ?_)
      rw [Event.sent, hsent]
      exact List.mem_append_left _ (mem_deletions.mpr ⟨dp, hdp, rfl⟩)

structure Rooted (app : SfcApp) (H : Set (Int × Int)) (flowId : ℕ) (row : FlowRow) (m : OFPMatch)
    (σ : State) : Prop where
  sources : SourcesIn H row σ
  pending : ∀ msg ∈ σ.pending, msg.metadata = some flowId → (msg.datapath.id, msg.inPort) ∈ H
  phase : Fresh app H flowId row m σ ∨ Cleared σ flowId m

theorem forward_flight {s p : Int} {f : Frame} (hst : Step app links σ (.forward s p f) σ') :
    (s, p, f) ∈ σ.flight := by
  cases hst with
  | forward hf =>
    rw [hf]
    exact List.mem_append_right _ List.mem_cons_self

theorem Rooted.hits_detection (h : Rooted app H flowId row m σ) (hE : Entering app db flowId row m H)
    {s p : Int} {f : Frame} (hf : (s, p, f) ∈ σ.flight)
    (hlag : ∀ pkt, f = .plain pkt → FlowPacket m pkt → (s, p) ∈ H ∨ ¬ Lagging σ s m)
    (hit : (σ.switches.tables s).Hits 0 (f.header p) (detectionKey m) (detectionInst flowId)) :
    (s, p) ∈ H := by
  obtain ⟨pkt, rfl, hpkt⟩ := plain_of_le hE.matched hE.ethType hit.fields
  rcases h.phase with hfresh | hcleared
  · exact (hfresh.flight _ hf hpkt).2
  · rcases hlag pkt rfl hpkt with hmem | hlag
    · exact hmem
    · exact absurd ((tables_of_not_lagging hlag).trans hit.entry) (hcleared s)

theorem Rooted.not_hits_source (h : Rooted app H flowId row m σ) (hE : Entering app db flowId row m H)
    {s p q : Int} {loc : String} {f : Frame} (hout : (s, p) ∉ H) {k : FlowKey} {i : List Instruction}
    (hit : (σ.switches.tables s).Hits 0 (f.header p) k i) : ¬ SourceEntry row q loc k i := by
  intro hsource
  have hmem := h.sources s q loc k i hsource (.inl hit.entry)
  obtain ⟨a, spi, si, src, ha, rfl, -⟩ := hsource
  have hq : OFPMatch.fields a .inPort = some (.int q) := by
    rw [matchEntryPoint_fields hE.matched.common ha, Match.set_self]
    simp [given, (hE.ports _ hmem).1]
  have hval : some (Value.int p) = some (.int q) := hit.fields .inPort _ hq
  obtain rfl : p = q := by simpa using hval
  exact hout hmem

theorem Rooted.step (h : Rooted app H flowId row m σ) (hE : Entering app db flowId row m H)
    (hb : Base app db σ) (hst : Step app links σ e σ') (hc : Careful H flowId m σ e) :
    Rooted app H flowId row m σ' := by
  refine ⟨?_, ?_, ?_⟩
  · refine h.sources.step hb hE.matched hE.alone hst ?_
    rintro msg fuel rfl hid
    exact h.pending msg (handled_pending hst) hid
  · intro msg hmsg hid
    rcases raised hb hE.matched.toDerived hE.identified hst hmsg hid with hmsg | ⟨f, rfl, -, -, hit⟩
    · exact h.pending msg hmsg hid
    · cases hc with
      | forward hlag => exact h.hits_detection hE (forward_flight hst) hlag hit
  · rcases h.phase with hfresh | hcleared
    · exact hfresh.step hE hb hst hc
    · refine .inr (hcleared.step hst ?_)
      rintro rfl
      cases hc with
      | addFlow hne => exact hne rfl

def CarefulStep (app : SfcApp) (links : Links) (H : Set (Int × Int)) (flowId : ℕ) (m : OFPMatch)
    (σ : State) (e : Event) (σ' : State) : Prop :=
  Step app links σ e σ' ∧ Careful H flowId m σ e

/-- From a state where the flow is detected everywhere and not active: in every careful run, source
entries of the flow are for the ports where its packets enter, and elsewhere its packets hit neither
its detection entry nor a source entry for it. -/
theorem rooted_at_entry (hE : Entering app db flowId row m H) {before es : List Event} {σ₁ : State}
    (hbefore : Run (Step app links) (start db) before σ₁) (hfresh : Fresh app H flowId row m σ₁)
    (hpending : ∀ msg ∈ σ₁.pending, msg.metadata = some flowId → (msg.datapath.id, msg.inPort) ∈ H)
    (hrun : Run (CarefulStep app links H flowId m) σ₁ es σ) :
    (∀ s q loc k i, SourceEntry row q loc k i → σ.switches.Holds s k i → (s, q) ∈ H) ∧
    ∀ s p pkt, (s, p, .plain pkt) ∈ σ.flight → FlowPacket m pkt → (s, p) ∉ H → ¬ Lagging σ s m →
      ∀ k i, (σ.switches.tables s).Hits 0 ((Frame.plain pkt).header p) k i →
        k ≠ detectionKey m ∧ ∀ q loc, ¬ SourceEntry row q loc k i := by
  have hb₁ := (Base.start app db).run hbefore
  have hrooted₁ : Rooted app H flowId row m σ₁ :=
    ⟨fun s q loc k i hs hk ↦
      absurd (hfresh.sources s q loc k i hs hk) (Set.notMem_empty _), hpending, .inl hfresh⟩
  obtain ⟨hb, hrooted⟩ := hrun.invariant (fun τ ↦ Base app db τ ∧ Rooted app H flowId row m τ)
    (fun τ e τ' hτ hst ↦ ⟨hτ.1.step hst.1, hτ.2.step hE hτ.1 hst.1 hst.2⟩) ⟨hb₁, hrooted₁⟩
  refine ⟨hrooted.sources, fun s p pkt hf hpkt hout hlag k i hit ↦ ?_⟩
  have hsource : ∀ q loc, ¬ SourceEntry row q loc k i :=
    fun q loc ↦ hrooted.not_hits_source hE hout hit
  refine ⟨?_, hsource⟩
  rintro rfl
  rcases own_entry_of_hits (sound_of_base hb s) hE.alone hpkt.le hit rfl with hi | ⟨q, loc, hs⟩
  · rw [hi, hE.matched.id_eq] at hit
    exact hout (hrooted.hits_detection hE hf (fun _ _ _ ↦ .inr hlag) hit)
  · exact hsource q loc hs

section Demo

def demoAdded : State :=
  ((((start Demo.singleDb).post (apiAddFlow Demo.threeSwitches Demo.singleDb 1).sent).process 1).process
    2).process 3

def demoPorts : Set (Int × Int) := {(1, 1)}

theorem demo_entering : Entering Demo.threeSwitches Demo.singleDb 1 (deriveTypes Demo.flow1Single)
    Demo.flow1Match demoPorts where
  matched := ⟨⟨rfl, Demo.flow1Single_common⟩, rfl⟩
  alone := by
    intro r hr hne
    obtain rfl : r = Demo.flow1Single := by simpa [Demo.singleDb] using hr
    exact absurd rfl hne
  ethType := by decide
  identified := by decide
  service := ⟨9, rfl⟩
  ports := by
    rintro a rfl
    exact ⟨by decide, ⟨1, 0⟩, by decide, rfl⟩

theorem demo_added : Run (Step Demo.threeSwitches demoLinks) (start Demo.singleDb)
    [.addFlow 1, .process 1, .process 2, .process 3] demoAdded :=
  .cons (.addFlow _ 1) (.cons (.process _ 1) (.cons (.process _ 2) (.one (.process _ 3))))

theorem demo_untouched (s : Int) : ¬ Lagging demoAdded s Demo.flow1Match := by
  have hadded : Confined demoAdded [1, 2, 3] :=
    ((((confined_start Demo.singleDb _).post (by decide +kernel)).process 1).process 2).process 3
  exact hadded.not_lagging (by decide +kernel) s Demo.flow1Match

theorem demo_sources : SourcesIn ∅ (deriveTypes Demo.flow1Single) demoAdded := by
  refine ((demo_added.restrict fun e he ↦ he).invariant
    (fun τ ↦ Base Demo.threeSwitches Demo.singleDb τ ∧ SourcesIn ∅ (deriveTypes Demo.flow1Single) τ)
    (fun τ e τ' hτ hst ↦ ⟨hτ.1.step hst.1,
      hτ.2.step hτ.1 demo_entering.matched demo_entering.alone hst.1 ?_⟩)
    ⟨.start _ _, fun s q loc k i hs hk ↦ absurd hk (start_no_source hs s)⟩).2
  rintro msg fuel rfl
  simpa using hst.2

theorem demo_fresh : Fresh Demo.threeSwitches demoPorts 1 (deriveTypes Demo.flow1Single) Demo.flow1Match
    demoAdded where
  detects := by decide +kernel
  untouched := demo_untouched
  sources := demo_sources
  flight := by rintro a ⟨⟩
  handed := by rintro a ⟨⟩

def demoEntered : State := { demoAdded with flight := [(1, 1, .plain Demo.packet)] }

def demoWaiting : State := { demoAdded with pending := [Demo.packetInFirst] }

def demoSent : List Message :=
  (packetInHandler 2 Demo.threeSwitches Demo.singleDb Demo.packetInFirst).sent

def demoActive : State :=
  { demoWaiting.post demoSent with
    db := Operations.committed Demo.singleDb
      (packetInHandler 2 Demo.threeSwitches Demo.singleDb Demo.packetInFirst)
    pending := [] }

theorem demo_detects : Passes (demoAdded.switches.tables 1) 1 0 0 (.plain Demo.packet)
    [.controller 2 (writeMetadata 0 1 0xffffffff) (.plain Demo.packet)] := by
  have hit : (demoAdded.switches.tables 1).Hits 0 ((Frame.plain Demo.packet).header 1)
      (detectionKey Demo.flow1Match) (detectionInst 1) :=
    (covers_process (covers_process (covers_process (covers_post (covers_start Demo.singleDb 1) _) 1) 2)
      3).listed.hits (by decide +kernel) (by decide +kernel)
  have hsound := sound_of_base ((Base.start Demo.threeSwitches Demo.singleDb).run demo_added) 1
  exact .goto hit (run_detection _ _ 1) ((passes_table2 hsound).mpr rfl)

theorem demo_forward : Step Demo.threeSwitches demoLinks demoEntered (.forward 1 1 (.plain Demo.packet))
    demoWaiting := by
  have hflight : demoEntered.flight = [] ++ (1, 1, .plain Demo.packet) :: [] := rfl
  exact .forward hflight demo_detects [] (by simp) [] (by simp)

theorem demo_handle : Step Demo.threeSwitches demoLinks demoWaiting (.handle Demo.packetInFirst 2)
    demoActive := by
  have hpending : demoWaiting.pending = [] ++ Demo.packetInFirst :: [] := rfl
  exact .handle hpending 2

theorem rooted_at_entry_demo : ¬ ∃ loc k i, SourceEntry (deriveTypes Demo.flow1Single) 2 loc k i ∧
    demoActive.switches.Holds 3 k i := by
  rintro ⟨loc, k, i, hsource, hk⟩
  have henter : Step Demo.threeSwitches demoLinks demoAdded (.enter 1 1 Demo.packet) demoEntered :=
    .enter _ rfl Demo.packet
  have hrun : Run (CarefulStep Demo.threeSwitches demoLinks demoPorts 1 Demo.flow1Match) demoAdded
      [.enter 1 1 Demo.packet, .forward 1 1 (.plain Demo.packet), .handle Demo.packetInFirst 2]
      demoActive :=
    .cons ⟨henter, .enter fun _ ↦ .inl rfl⟩ (.cons ⟨demo_forward, .forward fun _ _ _ ↦ .inl rfl⟩
      (.one ⟨demo_handle, .handle _ 2⟩))
  have hrooted := (rooted_at_entry demo_entering demo_added demo_fresh (by rintro msg ⟨⟩) hrun).1
  have hmem := hrooted 3 2 loc k i hsource hk
  simp [demoPorts] at hmem

def demoLag : State := ((((demoActive.process 1).process 1).process 2).process 2).process 2

theorem demo_lag : Run (Step Demo.threeSwitches demoLinks) demoAdded
    [.enter 1 1 Demo.packet, .forward 1 1 (.plain Demo.packet), .handle Demo.packetInFirst 2,
      .process 1, .process 1, .process 2, .process 2, .process 2] demoLag :=
  .cons (.enter _ rfl Demo.packet) (.cons demo_forward (.cons demo_handle (.cons (.process _ 1)
    (.cons (.process _ 1) (.cons (.process _ 2) (.cons (.process _ 2) (.one (.process _ 2))))))))

theorem demo_covers (s : Int) : demoLag.switches.Covers s
    (keysOn [] s ++ FlowTable.addedKeys (sentTo s
      (mods (apiAddFlow Demo.threeSwitches Demo.singleDb 1).sent)) ++
      FlowTable.addedKeys (sentTo s (mods demoSent))) := by
  have hadded := covers_process (covers_process (covers_process
    (covers_post (covers_start Demo.singleDb s) (apiAddFlow Demo.threeSwitches Demo.singleDb 1).sent)
    1) 2) 3
  have hactive : demoActive.switches.Covers s _ := covers_post hadded demoSent
  exact covers_process (covers_process (covers_process (covers_process (covers_process hactive 1) 1) 2)
    2) 2

theorem demo_sound (s : Int) : Sound Demo.singleDb.flows (demoLag.switches.tables s) :=
  sound_of_base (((Base.start Demo.threeSwitches Demo.singleDb).run demo_added).run demo_lag) s

def demoFrame : Frame :=
  .ether "00:00:00:00:00:02" "00:00:00:00:00:04" 9 1 (.plain Demo.packet)

theorem demo_encapsulated : Passes (demoLag.switches.tables 1) 1 0 0 (.plain Demo.packet)
    [.normal demoFrame] := by
  have hit : (demoLag.switches.tables 1).Hits 0 ((Frame.plain Demo.packet).header 1) Demo.flow1Source
      (flowInstructions (encapActions 9 1 "00:00:00:00:00:02" "00:00:00:00:00:04") none (some 3)) :=
    (demo_covers 1).listed.hits (by decide +kernel) (by decide +kernel)
  exact .goto hit rfl ((passes_table3 (demo_sound 1)).mpr rfl)

theorem demo_delivered : Passes (demoLag.switches.tables 2) 2 0 0 demoFrame
    [.port 1 (.plain Demo.packet)] := by
  have hnsh : (demoLag.switches.tables 2).Hits 0 (demoFrame.header 2) nshKey
      [.applyActions [], .gotoTable 1] :=
    (demo_covers 2).listed.hits (by decide +kernel) (by decide +kernel)
  have hhop : (demoLag.switches.tables 2).Hits 1 (demoFrame.header 2)
      ⟨1, 6, OFPMatch.fields (matchHop "00:00:00:00:00:02" 9 1)⟩
      (flowInstructions [.decap, .decap, .output (.phys 1)] (some 1) none) :=
    (demo_covers 2).listed.hits (by decide +kernel) (by decide +kernel)
  exact .goto hnsh rfl (.stop hhop rfl)

theorem demo_returned : Passes (demoLag.switches.tables 2) 1 0 0 (.plain Demo.packet)
    [.normal (.plain Demo.packet)] := by
  have hit : (demoLag.switches.tables 2).Hits 0 ((Frame.plain Demo.packet).header 1) (missKey 0)
      [.applyActions [], .gotoTable 3] :=
    (demo_covers 2).listed.hits (by decide +kernel) (by decide +kernel)
  exact .goto hit rfl ((passes_table3 (demo_sound 2)).mpr rfl)

/-- Switch 3 lags behind: a packet that comes back from the last VNF hits the detection entry
there, at a port that leads to another switch. -/
theorem demo_detected_again :
    Run (Step Demo.threeSwitches demoLinks) (start Demo.singleDb)
      [.addFlow 1, .process 1, .process 2, .process 3] demoAdded ∧
    ∃ es σ, Run (Step Demo.threeSwitches demoLinks) demoAdded es σ ∧
      (2, 1, Demo.packet) ∈ σ.handed ∧ (3, 2, .plain Demo.packet) ∈ σ.flight ∧
      demoLinks 3 2 ≠ none ∧
      (σ.switches.tables 3).Hits 0 ((Frame.plain Demo.packet).header 2)
        (detectionKey Demo.flow1Match) (detectionInst 1) := by
  refine ⟨demo_added, ?_⟩
  let entered : State := { demoLag with flight := [(1, 1, .plain Demo.packet)] }
  let carried : State := { demoLag with flight := [(2, 2, demoFrame)] }
  let handed : State := { demoLag with handed := [(2, 1, Demo.packet)] }
  let back : State := { handed with flight := [(2, 1, .plain Demo.packet)] }
  let passed : State := { handed with flight := [(3, 2, .plain Demo.packet)] }
  have henter : Step Demo.threeSwitches demoLinks demoLag (.enter 1 1 Demo.packet) entered :=
    .enter _ rfl _
  have hentered : entered.flight = [] ++ (1, 1, .plain Demo.packet) :: [] := rfl
  have hcarry : Step Demo.threeSwitches demoLinks entered (.forward 1 1 (.plain Demo.packet)) carried :=
    .forward hentered demo_encapsulated [(2, 2, demoFrame)]
      (by simpa using ⟨2, Leaves.normal (by simp) 2, by decide⟩) [] (by simp)
  have hcarried : carried.flight = [] ++ (2, 2, demoFrame) :: [] := rfl
  have hhand : Step Demo.threeSwitches demoLinks carried (.forward 2 2 demoFrame) handed :=
    .forward hcarried demo_delivered [] (by simp) [(2, 1, Demo.packet)]
      (by simpa using ⟨Leaves.port (by simp), by decide⟩)
  have hreturn : Step Demo.threeSwitches demoLinks handed (.enter 2 1 Demo.packet) back :=
    .enter _ rfl _
  have hback : back.flight = [] ++ (2, 1, .plain Demo.packet) :: [] := rfl
  have hpass : Step Demo.threeSwitches demoLinks back (.forward 2 1 (.plain Demo.packet)) passed :=
    .forward hback demo_returned [(3, 2, .plain Demo.packet)]
      (by simpa using ⟨3, Leaves.normal (by simp) 3, by decide⟩) [] (by simp)
  have hrun : Run (Step Demo.threeSwitches demoLinks) demoAdded _ passed :=
    demo_lag.trans (.cons henter (.cons hcarry (.cons hhand (.cons hreturn (.one hpass)))))
  refine ⟨_, passed, hrun, List.mem_singleton.mpr rfl, List.mem_singleton.mpr rfl, by decide, ?_⟩
  exact (demo_covers 3).listed.hits (by decide +kernel) (by decide +kernel)

end Demo

end NshSfc.Reroot
