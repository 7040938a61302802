import NshSfc.EndToEnd
import NshSfc.Histories
import NshSfc.Locality

namespace NshSfc.Sharing

open Library Library.Script Python Database OpenFlow RowMatch App Packets Controller Sent Fuel
  Handler Keys Switch Async Commuting Sites SiteTables Chain ChainFrames Pipeline Journey EndToEnd
  Histories Locality

open Operations (Op)

variable {app : SfcApp} {db : Db} {r : FlowRow} {c : OFPMatch} {spi : Int} {f : Frame} {q : Int}
  {k : FlowKey} {ops : List Op}

/-- The frames in which the packets of a flow are under way. -/
inductive OfService (c : OFPMatch) (spi : Int) : Frame → Prop
  | plain {pkt : Packet} (h : Returned c pkt) : OfService c spi (.plain pkt)
  | ether (dst src : String) (si : Int) {pkt : Packet} (h : Returned c pkt) :
      OfService c spi (.ether dst src spi si (.plain pkt))

/-- Flows that are independent, and none of which asks for encapsulated frames. -/
structure Apart (flows : List FlowRow) : Prop extends Independent flows where
  ethType : ∀ r ∈ flows, ∀ m, matchCommon (deriveTypes r) = .ok m →
    OFPMatch.fields m .ethType ≠ some (.int 0x894F)

section Foreign

variable {m : FieldMatch} {a : SwitchMod}

theorem FlowModOf.reach {h : FieldMatch} (hm : Plain m) (ha : FlowModOf m spi a)
    (ht : a.Touches k) (hk : k.fields ≤ h) :
    withoutEth m ≤ h ∨ h .nshSpi = some (.int (nshSpi spi)) := by
  cases ha with
  | common => exact .inl ((withoutEth_le m).trans (ht.2.trans hk))
  | service => exact .inr (hk _ _ (ht.2 _ _ (matchSpi_nshSpi spi)))
  | entry hkey i =>
    obtain rfl := ht
    cases hkey with
    | source p => exact .inl ((withoutEth_le m).trans (Match.le_of_set_le hm.inPort hk))
    | middle p => exact .inl (Match.le_of_set_le (withoutEth_inPort hm.inPort) hk)
    | aware si => exact .inr (hk _ _ (matchSpiSi_nshSpi spi si))
    | delivery loc si => exact .inr (hk _ _ (matchHop_nshSpi loc spi si))

theorem OfService.nshSpi (hf : OfService c spi f) {spi' : Int}
    (h : f.header q .nshSpi = some (.int spi')) : OpenFlow.nshSpi spi = spi' := by
  cases hf with
  | plain => cases h
  | ether => simpa using h

theorem OfService.foreign (hf : OfService c spi f) (hm : Plain m)
    (hclash : Match.Clash (withoutEth (OFPMatch.fields c)) (withoutEth m)) {v : Value}
    (htype : m .ethType = some v) (hne : v ≠ .int 0x894F) : ¬ withoutEth m ≤ f.header q := by
  intro hle
  cases hf with
  | plain h =>
    have hle := (le_header_of_inPort_none _ _ (withoutEth_inPort hm.inPort)).mp hle
    exact hclash.not_le hle h.flow
  | ether =>
    have hval := hle .ethType v (by rw [← htype]; rfl)
    exact hne (Option.some.inj hval).symm

theorem Apart.spares (h : Apart db.flows) (hr : r ∈ db.flows) (hspi : r.serviceId = some spi)
    (hc : matchCommon (deriveTypes r) = .ok c) (hf : OfService c spi f) (hk : k.fields ≤ f.header q)
    {o : Op} (ho : flowOf o ≠ some r.id) {n : Message} (hn : n ∈ Consumption.sent app db o) :
    ¬ n.2.toMod.Touches k := by
  intro ht
  obtain ⟨r', hr', ho'⟩ := sent_concerns hn
  have hrows : r ≠ r' := by
    rintro rfl
    exact ho ho'
  obtain ⟨spi', hspi'⟩ := h.service r' hr'
  obtain ⟨m, hm, hmod⟩ := sent_flowMods hr' hspi' ho' hn
  obtain ⟨fld, hfld, v, w, hv, hw, hvw⟩ := h.disagree r hr r' hr' hrows c m hc hm
  have hclash : Match.Clash (withoutEth (OFPMatch.fields c)) (withoutEth (OFPMatch.fields m)) :=
    ⟨fld, v, w, by rw [withoutEth_of_steering hfld, hv], by rw [withoutEth_of_steering hfld, hw],
      hvw⟩
  obtain ⟨t, htype⟩ := matchCommon_ethType hm
  have hne : Value.int t ≠ .int 0x894F := by
    intro heq
    exact h.ethType r' hr' m hm (htype.trans (congrArg some heq))
  rcases FlowModOf.reach (plain_of_common hm) hmod ht hk with hle | hval
  · exact hf.foreign (plain_of_common hm) hclash htype hne hle
  · exact h.services r hr r' hr' hrows spi spi' hspi hspi' (hf.nshSpi hval)

theorem Apart.foldl_effect (h : Apart db.flows) (hr : r ∈ db.flows) (hspi : r.serviceId = some spi)
    (hc : matchCommon (deriveTypes r) = .ok c) (hf : OfService c spi f) (hk : k.fields ≤ f.header q)
    (s : Int) {T T' : Network} (hT : T s k = T' s k) :
    ops.foldl (effect app db) T s k =
      (ops.filter (flowOf · = some r.id)).foldl (effect app db) T' s k := by
  induction ops generalizing T T' with
  | nil => exact hT
  | cons o ops ih =>
    by_cases ho : flowOf o = some r.id
    · rw [List.filter_cons_of_pos (by simpa using ho)]
      exact ih (FlowTable.applyAll_congr _ hT)
    · rw [List.filter_cons_of_neg (by simpa using ho)]
      refine ih (Eq.trans ?_ hT)
      exact receive_of_not_touches (fun n hn _ ↦ h.spares hr hspi hc hf hk ho hn) T

end Foreign

section Own

variable {fuel : ℕ} {flowId : ℕ} {msg : PacketIn} {row : FlowRow} {entry : OFPMatch} {m : Int → OFPMatch} {port : Int}
  {vs : List Site} {P : Int → Prop}

theorem within_goto {as : List Action} {md : BitVec 64} {t : ℕ} {f' : Frame} {F : Frame → Prop}
    (hrun : runActions q t md f as = ([], some f')) (hf' : F f') (metadata : Option Int) (t' : ℕ) :
    Within F P (runInstructions q t md f (flowInstructions as metadata (some (t' + 1)))) := by
  obtain ⟨md', hi⟩ := run_flowInstructions hrun metadata t'
  rw [hi]
  refine ⟨fun o ho ↦ absurd ho List.not_mem_nil, fun n hn ↦ ?_⟩
  obtain rfl := Option.some.inj hn
  exact hf'

theorem within_default {i : List Instruction} {F : Frame → Prop} (hd : DefaultEntry k i) (hf : F f)
    (t : ℕ) (q : Int) (md : BitVec 64) : Within F P (runInstructions q t md f i) := by
  have hgoto : ∀ t', Within F P (runInstructions q t md f [.applyActions [], .gotoTable t']) := by
    intro t'
    refine ⟨fun o ho ↦ absurd ho List.not_mem_nil, fun n hn ↦ ?_⟩
    obtain rfl := Option.some.inj hn
    exact hf
  cases hd with
  | registration | nsh | miss0 | miss1 => exact hgoto _
  | miss2 =>
    refine ⟨fun o ho ↦ ?_, nofun⟩
    obtain rfl := List.mem_singleton.mp ho
    exact .controller t md f
  | miss3 =>
    refine ⟨fun o ho ↦ ?_, nofun⟩
    obtain rfl := List.mem_singleton.mp ho
    exact .normal hf

theorem OfService.plain_of_ethType (hf : OfService c spi f) {t : Int}
    (ht : f.header q .ethType = some (.int t)) (hne : t ≠ 0x894F) :
    ∃ pkt, f = .plain pkt ∧ Returned c pkt := by
  cases hf with
  | plain h => exact ⟨_, rfl, h⟩
  | ether => exact absurd (by simpa using ht.symm) hne

theorem OfService.ether_of_nshSpi (hf : OfService c spi f) {v : Value}
    (hv : f.header q .nshSpi = some v) :
    ∃ dst src si pkt, f = .ether dst src spi si (.plain pkt) ∧ Returned c pkt := by
  cases hf with
  | plain => cases hv
  | ether dst src si h => exact ⟨dst, src, si, _, rfl, h⟩

theorem plain_of_entry (h : Installed fuel app db flowId msg row c m entry spi port vs)
    (hf : OfService c spi f) (hk : k.fields ≤ f.header q)
    (hfields : k.fields = OFPMatch.fields entry ∨ ∃ p, k.fields = OFPMatch.fields (m p)) :
    ∃ pkt, f = .plain pkt ∧ Returned c pkt := by
  obtain ⟨t, ht, hne⟩ := h.common_ethType
  have hfield : Field.ethType ≠ .inPort := nofun
  have htype : k.fields .ethType = some (.int t) := by
    rcases hfields with heq | ⟨p, heq⟩
    · rw [heq, h.entry_fields, Match.set_of_ne hfield, ht]
    · rw [heq, h.middle_fields, Match.set_of_ne hfield, withoutEth_of_steering (by decide), ht]
  exact hf.plain_of_ethType (hk _ _ htype) hne

theorem preserves (h : Installed fuel app db flowId msg row c m entry spi port vs) (s : Int) :
    Preserves (OfService c spi) (fun n ↦ n = port ∧ ∃ v ∈ vs, v.dp.id = s)
      (steered fuel app db flowId msg s) := by
  intro f hf t q md k i ha
  have hk := ha.fields
  have htable := ha.table
  have hspiSi : ∀ si, OFPMatch.fields (matchSpiSi spi si) ≤ f.header q →
      f.header q .nshSpi = some (.int (nshSpi spi)) :=
    fun si hle ↦ hle _ _ (matchSpiSi_nshSpi spi si)
  have hhop : ∀ loc si, OFPMatch.fields (matchHop loc spi si) ≤ f.header q →
      f.header q .nshSpi = some (.int (nshSpi spi)) :=
    fun loc si hle ↦ hle _ _ (matchHop_nshSpi loc spi si)
  cases h.entry_of ha.entry with
  | default hd => exact within_default hd hf t q md
  | source =>
    obtain ⟨pkt, rfl, hpkt⟩ := plain_of_entry h hf hk (.inl rfl)
    exact within_goto (SiteFrames.run_encapActions md q _ _ _ _ _ t) (.ether _ _ _ hpkt) _ 2
  | @hop v rest hsuf hs k i hv =>
    cases hv with
    | aware v' rest =>
      obtain ⟨dst, src, si, pkt, rfl, hpkt⟩ := hf.ether_of_nshSpi (hspiSi _ hk)
      obtain rfl : 1 = t := htable
      exact within_goto (SiteFrames.run_aware md q _ _ _ _ _ _) (.ether _ _ _ hpkt) _ 2
    | middle v' rest =>
      obtain ⟨pkt, rfl, hpkt⟩ := plain_of_entry h hf hk (.inr ⟨_, rfl⟩)
      exact within_goto (SiteFrames.run_encapActions md q _ _ _ _ _ t) (.ether _ _ _ hpkt) _ 2
    | last =>
      obtain ⟨dst, src, si, pkt, rfl, hpkt⟩ := hf.ether_of_nshSpi (hspiSi _ hk)
      exact within_goto rfl (.plain hpkt) _ 2
    | delivery =>
      obtain ⟨dst, src, si, pkt, rfl, hpkt⟩ := hf.ether_of_nshSpi (hhop _ _ hk)
      obtain rfl : 1 = t := htable
      rw [run_flowInstructions_last (SiteFrames.run_delivery md q _ _ _ _ _ _)]
      refine ⟨fun o ho ↦ ?_, nofun⟩
      rw [emit] at ho
      split at ho
      · cases ho
      · obtain rfl := List.mem_singleton.mp ho
        exact .port ⟨h.deployed.deliveryPort hsuf, v, hsuf.subset List.mem_cons_self, hs⟩
          (.plain hpkt)

end Own

section Run

variable {links : Links} {σ : State} {es : List Async.Event} {fuel flowId : ℕ} {msg : PacketIn}
  {row : FlowRow} {port : Int} {vs : List Site} {net : Surroundings}

theorem effect_default (h : Activates app db r msg fuel) (hr : r ∈ db.flows)
    (hid : r.id = flowId) (k : ℕ) :
    effect app db defaultNetwork (.packetIn msg fuel) = steered (fuel + k) app db flowId msg := by
  have hadd : Covered (apiAddFlow app db r.id).sent (packetInHandler fuel app db msg).sent :=
    addFlow_covered hr fun m hm hp dp hdp ↦ h.deletes hr hm hp hdp
  rw [steered, handler_add h.ends k, ← hid]
  exact (hadd.receive defaultNetwork).symm

theorem Apart.agree (hapart : Apart db.flows) (hr : r ∈ db.flows) (hid : r.id = flowId)
    (hspi : r.serviceId = some spi) (hc : matchCommon (deriveTypes r) = .ok c)
    (hregular : ∀ o ∈ ops, flowOf o = some r.id → Regular app db o)
    (hstatus : status flowId ops = ⟨some (msg, fuel), false, false⟩) (k : ℕ) (s : Int) :
    Agree (OfService c spi) (steered (fuel + k) app db flowId msg s)
      (ops.foldl (effect app db) defaultNetwork s) := by
  intro f hf q key hkey
  have hown : ∀ o ∈ ops.filter (flowOf · = some r.id), Concerned app db r o := by
    intro o ho
    obtain ⟨ho, hflow⟩ := List.mem_filter.mp ho
    have hflow : flowOf o = some r.id := by simpa using hflow
    exact ⟨hflow, hregular o ho hflow⟩
  have hhistory : history (ops.filter (flowOf · = some r.id)) =
      ⟨some (msg, fuel), false, false⟩ := by
    rw [hid]
    exact hstatus
  have hactivates := activated_of_history hown (congrArg Status.activated hhistory)
  have hreplay := foldl_history hapart.service hr hown clear_default
  rw [hhistory] at hreplay
  rw [hapart.foldl_effect hr hspi hc hf hkey s rfl, hreplay, ← effect_default hactivates hr hid k]
  rfl

theorem Apart.served (hapart : Apart db.flows)
    (hregular : ∀ o ∈ ops, flowOf o = some (flowId : Int) → Regular app db o)
    (hstatus : status flowId ops = ⟨some (msg, fuel), false, false⟩)
    (h : Activation app db flowId msg row c spi port vs) (hkeeps : EndToEnd.Keeps net port c vs)
    (hconn : Connects net port msg.datapath.id vs) {pkt : Packet}
    (hflow : OFPMatch.fields c ≤ pkt.fields)
    (hreg : ¬ OFPMatch.fields matchRegistration ≤ pkt.fields) (events : List Journey.Event) :
    Travels (ops.foldl (effect app db) defaultNetwork) net msg.datapath.id msg.inPort (.plain pkt)
      events ↔ events = visits net port msg.datapath.id vs pkt := by
  obtain ⟨r, hhead, rfl⟩ := h.matched.head
  obtain ⟨hr, hid⟩ := Db.mem_selectFlows.mp (List.mem_of_head? hhead)
  obtain ⟨m, entry, hi⟩ := h.installed (Nat.le_add_left vs.length fuel)
  have hp : Returned c pkt := ⟨(withoutEth_le _).trans hflow, hreg⟩
  have hagree := hapart.agree hr hid h.service h.matched.common (hid ▸ hregular) hstatus vs.length
  have hhost : ∀ s n pkt, (n = port ∧ ∃ v ∈ vs, v.dp.id = s) → OfService c spi (.plain pkt) →
      OfService c spi (.plain (net.host s n pkt)) := by
    rintro s n pkt ⟨rfl, v, hv, rfl⟩ hf
    cases hf with
    | plain hpkt => exact .plain (hkeeps v hv pkt hpkt)
  rw [← travels_iff (preserves hi) hagree hhost (.plain hp)]
  exact travels_installed hi hkeeps hconn hflow hp

/-- Whatever is asked for the other flows, and however all this interleaves: once the switches have
processed what has been sent, every packet of a flow whose last operation was the packet-in goes
through the VNFs of its chain in order, and then leaves. -/
theorem served_among_others (hapart : Apart db.flows) (hrun : Run (Step app links) (start db) es σ)
    (hidle : σ.switches.Idle)
    (hhandled : ∀ msg fuel, .handle msg fuel ∈ es →
      isRegistration msg = false ∧ Ends (packetInHandler fuel app db msg))
    (hstatus : status flowId (es.filterMap Async.Event.op) = ⟨some (msg, fuel), false, false⟩)
    (h : Activation app db flowId msg row c spi port vs) (hkeeps : EndToEnd.Keeps net port c vs)
    (hconn : Connects net port msg.datapath.id vs) {pkt : Packet}
    (hflow : OFPMatch.fields c ≤ pkt.fields)
    (hreg : ¬ OFPMatch.fields matchRegistration ≤ pkt.fields) (events : List Journey.Event) :
    Travels σ.switches.tables net msg.datapath.id msg.inPort (.plain pkt) events ↔
      events = visits net port msg.datapath.id vs pkt := by
  have hregular := regular_of_run (.start app db) hrun hhandled
  have hsettled := Settling.settled_of_run hrun
  have hstart : (start db).settled = ⟨db, defaultNetwork⟩ := rfl
  rw [hstart, foldl_step hregular] at hsettled
  have htables : σ.switches.tables = (es.filterMap Async.Event.op).foldl (effect app db)
      defaultNetwork := by
    rw [← hidle.drained]
    exact congrArg Operations.State.tables hsettled
  rw [htables]
  exact hapart.served (fun o ho _ ↦ hregular o ho) hstatus h hkeeps hconn hflow hreg events

theorem demo_apart : Apart Demo.db.flows where
  toIndependent := demo_independent
  ethType := by
    intro r hr m hm
    have hr : r = Demo.flow1 ∨ r = Demo.flow2 := by simpa [Demo.db] using hr
    rcases hr with rfl | rfl
    · obtain rfl := Except.ok.inj (Demo.flow1_common.symm.trans hm)
      decide
    · obtain rfl := Except.ok.inj (Demo.flow2_common.symm.trans hm)
      decide

theorem demo_settled : ∃ es σ, Run (Step Demo.app Detection.demoLinks) (start Demo.db) es σ ∧
    σ.switches.Idle ∧
    es.filterMap Async.Event.op = [.addFlow 1, .packetIn Demo.packetIn 2, .addFlow 2] ∧
    ∀ msg fuel, .handle msg fuel ∈ es → msg = Demo.packetIn ∧ fuel = 2 := by
  have hadd : Step Demo.app Detection.demoLinks Bypass.demoGap (.addFlow 2) _ := .addFlow _ 2
  have hrun := Detection.demo_ready.trans (Bypass.demo_gap.trans (.one hadd))
  have hconnected := (Settling.Connected.start Demo.app Demo.db).run hrun
  obtain ⟨ss, σ, hprocess, hidle, -⟩ := hconnected.settles Detection.demoLinks
  refine ⟨_, σ, hrun.trans hprocess, hidle, ?_, fun msg fuel hmem ↦ ?_⟩
  · rw [List.filterMap_append, Settling.op_of_process]
    rfl
  · simpa using hmem

theorem served_among_others_demo : ∃ es σ,
    Run (Step Demo.app Detection.demoLinks) (start Demo.db) es σ ∧
    es.filterMap Async.Event.op = [.addFlow 1, .packetIn Demo.packetIn 2, .addFlow 2] ∧
    Travels σ.switches.tables demoNet 4 1 (.plain Demo.packet)
      (visits demoNet 1 4 demoChain Demo.packet) := by
  obtain ⟨es, σ, hrun, hidle, hops, hhandled⟩ := demo_settled
  have hstatus : status 1 (es.filterMap Async.Event.op) =
      ⟨some (Demo.packetIn, 2), false, false⟩ := by
    rw [hops]
    rfl
  refine ⟨es, σ, hrun, hops, ?_⟩
  refine (served_among_others demo_apart hrun hidle (fun msg fuel hmem ↦ ?_) hstatus demo_activation
    demo_keeps demo_connects (by decide) (by decide) _).mpr rfl
  obtain ⟨rfl, rfl⟩ := hhandled msg fuel hmem
  exact ⟨by decide, ends_of_ok (rfl : _ = Except.ok Demo.db)⟩

end Run

end NshSfc.Sharing
