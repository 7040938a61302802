import NshSfc.Provenance

namespace NshSfc.Outcomes

open Library Library.Script Python Database OpenFlow RowMatch App Packets Controller Sent Handler
  Keys Switch Pipeline Async Provenance

/-- A table of a switch in a run: default entries, those of the last two tables in place, and
entries of flows. -/
structure Sound (flows : List FlowRow) (T : SwitchTable) : Prop where
  entries : ∀ k i, T k = some i → DefaultEntry k i ∨ ∃ r ∈ flows, FlowEntry (deriveTypes r) k i
  default : ∀ k i, DefaultEntry k i → 2 ≤ k.table → T k = some i

theorem sound_of_base {app : SfcApp} {db : Db} {σ : State} (h : Base app db σ) (s : Int) :
    Sound db.flows (σ.switches.tables s) where
  entries k i hk := (h.tables s k i hk).imp_right fun ⟨r, hr, hp⟩ ↦ ⟨r, hr, hp.entry⟩
  default := h.default s

variable {flows : List FlowRow} {T : SwitchTable} {p : Int} {t : ℕ} {md : BitVec 64} {f : Frame}
  {outs : List Out} {k : FlowKey} {i : List Instruction}

theorem selects_default (hT : Sound flows T) (ht : 2 ≤ t) (hd : DefaultEntry (missKey t) i) :
    T.Selects t (f.header p) (missKey t) i := by
  refine ⟨⟨hT.default _ _ hd ht, rfl, bot_le⟩, fun k' i' ha hne ↦ ?_⟩
  have htable := ha.table
  rcases hT.entries k' i' ha.entry with hk' | ⟨r, -, hk'⟩
  · cases hk' with
    | miss2 | miss3 =>
      cases htable
      exact absurd rfl hne
    | registration | nsh | miss0 | miss1 =>
      subst htable
      simp [registrationKey, nshKey, missKey] at ht
  · cases hk' <;> (subst htable; simp at ht)

theorem passes_table2 (hT : Sound flows T) : Passes T p 2 md f outs ↔ outs = [.controller 2 md f] :=
  passes_stop_iff (selects_default hT le_rfl .miss2) rfl

theorem passes_table3 (hT : Sound flows T) : Passes T p 3 md f outs ↔ outs = [.normal f] :=
  passes_stop_iff (selects_default hT (by decide) .miss3) rfl

def Forwards (pkt : Packet) (outs : List Out) : Prop :=
  ∀ out ∈ outs, ∃ g, payload g = pkt ∧ ((∃ n, out = .port n g) ∨ out = .normal g)

theorem forwards_nil (pkt : Packet) : Forwards pkt [] := by
  intro out h
  cases h

theorem forwards_normal (g : Frame) : Forwards (payload g) [.normal g] := by
  intro out h
  obtain rfl := List.mem_singleton.mp h
  exact ⟨g, rfl, .inr rfl⟩

theorem Forwards.leaves {pkt : Packet} (h : Forwards pkt outs) {n : Int} {g : Frame}
    (hleaves : Leaves outs n g) : payload g = pkt := by
  cases hleaves with
  | port hout =>
    obtain ⟨g', hg, ⟨n', heq⟩ | heq⟩ := h _ hout
    · cases heq
      exact hg
    · cases heq
  | normal hout =>
    obtain ⟨g', hg, ⟨n', heq⟩ | heq⟩ := h _ hout
    · cases heq
    · cases heq
      exact hg

theorem forwards_table3 (hT : Sound flows T) (h : Passes T p 3 md f outs) :
    Forwards (payload f) outs := by
  rw [(passes_table3 hT).mp h]
  exact forwards_normal f

theorem ether_of_fields {v w : Value} (ht : f.header p .ethType = some v)
    (hs : f.header p .nshSpi = some w) : ∃ dst src spi si g, f = .ether dst src spi si g := by
  cases f with
  | plain pkt => cases hs
  | nsh spi si g => cases ht
  | ether dst src spi si g => exact ⟨dst, src, spi, si, g, rfl⟩

theorem after_goto (hT : Sound flows T) {as : List Action} {metadata : Option Int} {g : Frame}
    (hrun : runActions p t md f as = ([], some g))
    (h : After T p outs (runInstructions p t md f (flowInstructions as metadata (some 3)))) :
    outs = [.normal g] := by
  obtain ⟨md', hmd⟩ := run_flowInstructions hrun metadata 2
  rw [hmd] at h
  obtain ⟨outs', rfl, hp⟩ := h
  exact (passes_table3 hT).mp hp

theorem run_encap (md : BitVec 64) (f : Frame) (spi si : Int) (loc src : String) :
    runActions p t md f (encapActions spi si loc src) = ([], some (.ether loc src spi si f)) := by
  cases f <;> rfl

theorem forwards_table1 (hT : Sound flows T) (h : Passes T p 1 md f outs) :
    Forwards (payload f) outs := by
  rcases passes_hits h with ⟨rfl, -⟩ | ⟨k, i, hit, hafter⟩
  · exact forwards_nil _
  have htable := hit.table
  rcases hT.entries k i hit.entry with hk | ⟨r, -, hk⟩
  · cases hk with
    | miss1 =>
      obtain ⟨outs', rfl, hp⟩ := hafter
      exact forwards_table3 hT hp
    | registration | nsh | miss0 | miss2 | miss3 => cases htable
  · cases hk with
    | detection | source | middle => cases htable
    | aware spi si loc =>
      obtain ⟨dst, src, spi', si', g, rfl⟩ := ether_of_fields
        (hit.fields .ethType (.int 0x894F) rfl) (hit.fields .nshSpi _ (matchSpiSi_nshSpi spi si))
      rw [after_goto hT (g := .ether loc src spi' si' g) rfl hafter]
      exact forwards_normal (.ether loc src spi' si' g)
    | last spi =>
      obtain ⟨dst, src, spi', si', g, rfl⟩ := ether_of_fields
        (hit.fields .ethType (.int 0x894F) rfl) (hit.fields .nshSpi _ (matchSpiSi_nshSpi spi 0))
      rw [after_goto hT (g := g) rfl hafter]
      exact forwards_normal g
    | delivery spi si loc port =>
      obtain ⟨dst, src, spi', si', g, rfl⟩ := ether_of_fields
        (hit.fields .ethType (.int 0x894F) rfl) (hit.fields .nshSpi _ (matchHop_nshSpi loc spi si))
      have hrun : runActions p 1 md (.ether dst src spi' si' g)
          [.decap, .decap, .output (.phys port)] = (emit p 1 md g (.phys port), some g) := by
        simp [runActions, applyAction]
      rw [run_flowInstructions_last hrun] at hafter
      have houts : outs = if port = p then [] else [.port port g] := hafter
      rw [houts]
      split
      · exact forwards_nil _
      · intro out hout
        obtain rfl := List.mem_singleton.mp hout
        exact ⟨g, rfl, .inl ⟨port, rfl⟩⟩

theorem run_detection (md : BitVec 64) (f : Frame) (id : Int) :
    runInstructions p t md f (detectionInst id) =
      ([], some (2, if id = 0 then md else writeMetadata md id 0xffffffff, f)) := by
  by_cases hid : id = 0 <;> simp [detectionInst, flowInstructions, runInstructions, runActions, hid]

def DetectedBy (flows : List FlowRow) (T : SwitchTable) (p : Int) (f : Frame) (md : BitVec 64) : Prop :=
  ∃ r ∈ flows, ∃ m, matchCommon (deriveTypes r) = .ok m ∧
    T.Hits 0 (f.header p) ⟨0, 8, OFPMatch.fields m⟩ (detectionInst r.id) ∧
    md = writeMetadata 0 r.id 0xffffffff

/-- A switch forwards a frame as data, or hands it to the controller with the id of a flow whose
detection entry it has hit, or without one. -/
theorem passes_table0 (hT : Sound flows T) (h : Passes T p 0 0 f outs) :
    Forwards (payload f) outs ∨
      ∃ md, outs = [.controller 2 md f] ∧ (md = 0 ∨ DetectedBy flows T p f md) := by
  rcases passes_hits h with ⟨rfl, -⟩ | ⟨k, i, hit, hafter⟩
  · exact .inl (forwards_nil _)
  have htable := hit.table
  rcases hT.entries k i hit.entry with hk | ⟨r, hr, hk⟩
  · cases hk with
    | registration =>
      obtain ⟨outs', rfl, hp⟩ := hafter
      exact .inr ⟨0, (passes_table2 hT).mp hp, .inl rfl⟩
    | nsh =>
      obtain ⟨outs', rfl, hp⟩ := hafter
      exact .inl (forwards_table1 hT hp)
    | miss0 =>
      obtain ⟨outs', rfl, hp⟩ := hafter
      exact .inl (forwards_table3 hT hp)
    | miss1 | miss2 | miss3 => cases htable
  · cases hk with
    | @detection m hm =>
      rw [run_detection] at hafter
      obtain ⟨outs', rfl, hp⟩ := hafter
      refine .inr ⟨_, (passes_table2 hT).mp hp, ?_⟩
      by_cases hid : (deriveTypes r).id = 0
      · exact .inl (if_pos hid)
      · exact .inr ⟨r, hr, m, hm, hit, if_neg hid⟩
    | source hm spi si loc src =>
      rw [after_goto hT (run_encap ..) hafter]
      exact .inl (forwards_normal (.ether loc src spi si f))
    | middle hm spi si loc src =>
      rw [after_goto hT (run_encap ..) hafter]
      exact .inl (forwards_normal (.ether loc src spi si f))
    | aware | delivery | last => cases htable

theorem writeMetadata_toNat (id : Int) :
    (writeMetadata 0 id 0xffffffff).toNat = (id % 2 ^ 64).toNat % 2 ^ 32 := by
  have hand := Nat.and_two_pow_sub_one_eq_mod (id % 2 ^ 64).toNat 32
  simpa [writeMetadata, BitVec.toNat_ofInt] using hand

theorem reported_eq {id : Int} {flowId : ℕ}
    (h : reported (writeMetadata 0 id 0xffffffff) = some flowId) : id % 2 ^ 32 = flowId := by
  have hval := writeMetadata_toNat id
  unfold reported at h
  split at h
  · cases h
  · have := Option.some.inj h
    omega

def Identified (flows : List FlowRow) (flowId : ℕ) : Prop :=
  ∀ r ∈ flows, r.id % 2 ^ 32 = flowId → r.id = flowId

instance (flows : List FlowRow) (flowId : ℕ) : Decidable (Identified flows flowId) :=
  inferInstanceAs (Decidable (∀ r ∈ flows, r.id % 2 ^ 32 = flowId → r.id = flowId))

section Raised

variable {app : SfcApp} {db : Db} {s : Int} {msg : PacketIn} {flowId : ℕ}

structure RaisedAt (app : SfcApp) (s p : Int) (outs : List Out) (msg : PacketIn) : Prop where
  connected : msg.datapath ∈ app.datapaths
  switch : msg.datapath.id = s
  port : msg.inPort = p
  sent : ∃ md f, .controller msg.tableId md f ∈ outs ∧ msg.metadata = reported md

theorem raisedAt_of_mem (h : msg ∈ packetIns app s p outs) : RaisedAt app s p outs msg := by
  obtain ⟨dp, hdp, hmsg⟩ := List.mem_flatMap.mp h
  obtain ⟨hdp, hs⟩ := List.mem_filter.mp hdp
  obtain ⟨out, hout, hmsg⟩ := List.mem_filterMap.mp hmsg
  cases out with
  | controller t md f =>
    obtain ⟨pkt, -, rfl⟩ := Option.map_eq_some_iff.mp hmsg
    exact ⟨hdp, by simpa using hs, rfl, md, f, hout, rfl⟩
  | port | normal => cases hmsg

theorem raised_by_detection (hT : Sound flows T) (hids : Identified flows flowId)
    (hp : Passes T p 0 0 f outs) (hmsg : msg ∈ packetIns app s p outs)
    (hid : msg.metadata = some flowId) :
    msg.tableId = 2 ∧ ∃ r ∈ flows, r.id = flowId ∧ ∃ m, matchCommon (deriveTypes r) = .ok m ∧
      T.Hits 0 (f.header p) ⟨0, 8, OFPMatch.fields m⟩ (detectionInst flowId) := by
  obtain ⟨md, g, hout, hmd⟩ := (raisedAt_of_mem hmsg).sent
  have hreported : reported md = some flowId := hmd.symm.trans hid
  rcases passes_table0 hT hp with hfwd | ⟨md', rfl, hsrc⟩
  · obtain ⟨g', -, ⟨n, h⟩ | h⟩ := hfwd _ hout <;> cases h
  · obtain ⟨htable, rfl, rfl⟩ := Out.controller.inj (List.mem_singleton.mp hout)
    refine ⟨htable, ?_⟩
    rcases hsrc with rfl | ⟨r, hr, m, hm, hit, rfl⟩
    · cases hreported
    · have hrid := hids r hr (reported_eq hreported)
      exact ⟨r, hr, hrid, m, hm, hrid ▸ hit⟩

end Raised

section Flow

variable {row : FlowRow} {m : OFPMatch} {pkt : Packet}

/-- A plain packet of the flow. One with the Ethernet type of NSH frames would be taken for such. -/
structure FlowPacket (m : OFPMatch) (pkt : Packet) : Prop where
  le : OFPMatch.fields m ≤ pkt.fields
  notNsh : pkt.ethType ≠ 0x894F

/-- No packet of the flow is a packet of another one. -/
def Alone (flows : List FlowRow) (row : FlowRow) (m : OFPMatch) : Prop :=
  ∀ r ∈ flows, deriveTypes r ≠ row → ∀ m', matchCommon (deriveTypes r) = .ok m' →
    Match.Clash (OFPMatch.fields m') (OFPMatch.fields m)

theorem foreign_not_touches {app : SfcApp} (hflow : Alone flows row m) (hm : matchCommon row = .ok m)
    {r : FlowRow} (hr : r ∈ flows) (hne : deriveTypes r ≠ row) {n : Message}
    (hrule : Rule app (deriveTypes r) n) (v : Option Value) :
    ¬ n.2.toMod.Touches ⟨0, 8, (OFPMatch.fields m).set .inPort v⟩ := by
  intro ht
  cases hn : n.2.toMod with
  | add k i =>
    rw [hn] at ht
    obtain rfl : k = _ := ht
    have he : FlowEntry (deriveTypes r) _ i := Placed.entry ⟨n, hrule, rfl, hn⟩
    have hsame : ∀ {m' : OFPMatch} {w : Option Value}, matchCommon (deriveTypes r) = .ok m' →
        (OFPMatch.fields m').set .inPort w ≠ (OFPMatch.fields m).set .inPort v := by
      intro m' w hm' heq
      exact (hflow r hr hne m' hm').ne
        (Match.set_injective (matchCommon_inPort hm') (matchCommon_inPort hm) heq)
    generalize hk : (⟨0, 8, (OFPMatch.fields m).set .inPort v⟩ : FlowKey) = k at he
    cases he with
    | detection hm' =>
      refine hsame (w := none) hm' ?_
      rw [set_inPort_none (matchCommon_inPort hm')]
      exact (congrArg Key.fields hk).symm
    | source hs =>
      obtain ⟨m', hm'⟩ := flowMatch_ok_of_ok hs (ethFields (deriveTypes r))
      have hf := congrArg Key.fields hk
      rw [matchEntryPoint_fields hm' hs] at hf
      exact hsame hm' hf.symm
    | middle => cases congrArg Key.priority hk
    | aware | delivery | last => cases congrArg Key.table hk
  | delete t c =>
    rw [hn] at ht
    cases hrule with
    | add h =>
      cases h
      cases hn
    | delete h =>
      cases h with
      | common hdp hm' =>
        cases hn
        exact (hflow r hr hne _ hm').not_le le_rfl (Match.le_of_le_set (matchCommon_inPort hm') ht.2)
      | spi hdp hspi =>
        cases hn
        have hval : OFPMatch.fields m .nshSpi = some _ := ht.2 .nshSpi _ (matchSpi_nshSpi _)
        rw [matchCommon_nshSpi hm] at hval
        cases hval
    | install msg h =>
      obtain ⟨dp, t, p, m, a, i, g, rfl, -⟩ := InstallRule.exists_add h
      cases hn

theorem own_entry (hflow : Alone flows row m) (hpkt : OFPMatch.fields m ≤ pkt.fields) {r : FlowRow}
    (hr : r ∈ flows) (hk : FlowEntry (deriveTypes r) k i) (hprio : 8 ≤ k.priority)
    (ha : T.Applies 0 ((Frame.plain pkt).header p) k i) : FlowEntry row k i := by
  by_cases hrow : deriveTypes r = row
  · rwa [← hrow]
  have hout : ∀ {m' : OFPMatch}, matchCommon (deriveTypes r) = .ok m' →
      ¬ OFPMatch.fields m' ≤ (Frame.plain pkt).header p := by
    intro m' hm' hle
    rw [le_header_of_inPort_none _ _ (matchCommon_inPort hm')] at hle
    exact ((hflow r hr hrow m' hm').mono le_rfl hpkt).not_le le_rfl hle
  have htable := ha.table
  cases hk with
  | detection hm' => exact absurd ha.fields (hout hm')
  | source he =>
    obtain ⟨m', hm'⟩ := flowMatch_ok_of_ok he (ethFields (deriveTypes r))
    have hle := ha.fields
    rw [matchEntryPoint_fields hm' he] at hle
    exact absurd (Match.le_of_set_le (matchCommon_inPort hm') hle) (hout hm')
  | middle => simp at hprio
  | aware | delivery | last => cases htable

theorem flow_hits (hT : Sound flows T) (hflow : Alone flows row m)
    (hpkt : FlowPacket m pkt) (hit : T.Hits 0 ((Frame.plain pkt).header p) k i)
    (hprio : 8 ≤ k.priority) :
    (k = registrationKey ∧ i = [.applyActions [], .gotoTable 2]) ∨ FlowEntry row k i := by
  have htable := hit.table
  rcases hT.entries k i hit.entry with hk | ⟨r, hr, hk⟩
  · cases hk with
    | registration => exact .inl ⟨rfl, rfl⟩
    | nsh =>
      have hval : (Frame.plain pkt).header p .ethType = some (.int 0x894F) := hit.fields .ethType _ rfl
      have hval : some (Value.int pkt.ethType) = some (.int 0x894F) := hval
      exact absurd (by simpa using hval) hpkt.notNsh
    | miss0 => exact absurd hprio (by decide)
    | miss1 | miss2 | miss3 => cases htable
  · exact .inr (own_entry hflow hpkt.le hr hk hprio hit.toApplies)

/-- The source entry of the flow for port `q`, towards the VNF at `loc`. -/
def SourceEntry (row : FlowRow) (q : Int) (loc : String) (k : FlowKey) (i : List Instruction) : Prop :=
  ∃ e spi si src, matchEntryPoint q row = .ok e ∧ k = ⟨0, 8, OFPMatch.fields e⟩ ∧
    i = flowInstructions (encapActions spi si loc src) none (some 3)

theorem own_entry_of_hits (hT : Sound flows T) (hflow : Alone flows row m)
    (hpkt : OFPMatch.fields m ≤ pkt.fields) (hit : T.Hits 0 ((Frame.plain pkt).header p) k i)
    (hprio : k.priority = 8) :
    i = detectionInst row.id ∨ ∃ q loc, SourceEntry row q loc k i := by
  have htable := hit.table
  rcases hT.entries k i hit.entry with hd | ⟨r, hr, hk⟩
  · cases hd <;> cases hprio
  have hown := own_entry hflow hpkt hr hk hprio.ge hit.toApplies
  cases hown with
  | detection => exact .inl rfl
  | @source q e he spi si loc src => exact .inr ⟨q, loc, e, spi, si, src, he, rfl, rfl⟩
  | middle => cases hprio
  | aware | delivery | last => cases htable

theorem guarded_passes (hT : Sound flows T) (hflow : Alone flows row m)
    (hpkt : FlowPacket m pkt) {k₀ : FlowKey}
    {i₀ : List Instruction} (ha : T.Applies 0 ((Frame.plain pkt).header p) k₀ i₀)
    (hprio : k₀.priority = 8) (h : Passes T p 0 0 (.plain pkt) outs) :
    (∃ md, outs = [.controller 2 md (.plain pkt)]) ∨ ∃ q loc k i spi si src,
      SourceEntry row q loc k i ∧ T.Hits 0 ((Frame.plain pkt).header p) k i ∧
      outs = [.normal (.ether loc src spi si (.plain pkt))] := by
  rcases passes_hits h with ⟨-, hmiss⟩ | ⟨k, i, hit, hafter⟩
  · exact absurd ha (hmiss k₀ i₀)
  have hle : 8 ≤ k.priority := hprio ▸ hit.top k₀ i₀ ha
  have htable := hit.table
  rcases flow_hits hT hflow hpkt hit hle with ⟨rfl, rfl⟩ | hk
  · obtain ⟨outs', rfl, hp⟩ := hafter
    exact .inl ⟨0, (passes_table2 hT).mp hp⟩
  cases hk with
  | detection hm =>
    rw [run_detection] at hafter
    obtain ⟨outs', rfl, hp⟩ := hafter
    exact .inl ⟨_, (passes_table2 hT).mp hp⟩
  | @source q e he spi si loc src =>
    exact .inr ⟨q, loc, _, _, spi, si, src, ⟨e, spi, si, src, he, rfl, rfl⟩, hit,
      after_goto hT (run_encap ..) hafter⟩
  | middle => simp at hle
  | aware | delivery | last => cases htable

end Flow

end NshSfc.Outcomes
