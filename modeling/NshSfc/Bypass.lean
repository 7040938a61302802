import NshSfc.Detection
import NshSfc.Library.Replace

namespace NshSfc.Bypass

open Library Library.Script Python Database OpenFlow RowMatch App Packets Controller Sent Handler
  Keys Switch Pipeline Async Provenance Outcomes Detection

variable {app : SfcApp} {links : Links} {db : Db} {σ σ' : State} {e : Event} {msg : PacketIn}
  {flowId : ℕ} {row : FlowRow} {m : OFPMatch} {s p : Int} {loc : String}

/-- The flow has a service id, and its first VNF is registered with a locator. -/
def Registered (db : Db) (row : FlowRow) (loc : String) : Prop :=
  (∃ spi, row.serviceId = some spi) ∧ ∃ vnfId dpid port,
    (db.selectFirstVnfId row.serviceId).head? = some vnfId ∧
    (db.selectBidirectional vnfId).head? = some (some "True") ∧
    (db.selectLocator vnfId).head? = some (some loc, dpid, port)

/-- The registration does not hide a row of VNF `v` with interface type `t` from a select: it says
bidirectional too, or its interface type does not come before `t`. -/
def Harmless (v : Int) (t : Option Int) (msg : PacketIn) : Prop :=
  ∀ info, isRegistration msg → msg.packet.registration = some info → info.vnfId = some v →
    info.bidirectional = some "True" ∨ ¬ nullsFirst info.iftype t

structure Stays (v : Int) (t : Option Int) (row : FlowRow) (loc : String) (db : Db) : Prop where
  service : ∃ spi, row.serviceId = some spi
  first : (db.selectFirstVnfId row.serviceId).head? = some v
  found : ∃ r, db.vnf.find? (·.id = v) = some r ∧ r.bidirectional = some "True" ∧
    ¬ nullsFirst t r.iftype
  locator : ∃ dpid port, (db.selectLocator v).head? = some (some loc, dpid, port)

theorem Stays.registered {v : Int} {t : Option Int} (h : Stays v t row loc db) :
    Registered db row loc := by
  obtain ⟨r, hr, htrue, -⟩ := h.found
  obtain ⟨dpid, port, hloc⟩ := h.locator
  refine ⟨h.service, v, dpid, port, h.first, ?_, hloc⟩
  rw [Db.selectBidirectional_head, hr, Option.map_some, htrue]

theorem Registered.stays (h : Registered db row loc) : ∃ v, ∃ r ∈ db.vnf, r.id = v ∧
    (db.selectFirstVnfId row.serviceId).head? = some v ∧ Stays v r.iftype row loc db := by
  obtain ⟨hspi, v, dpid, port, hfirst, hbi, hloc⟩ := h
  rw [Db.selectBidirectional_head] at hbi
  obtain ⟨r, hr, htrue⟩ := Option.map_eq_some_iff.mp hbi
  have hid : r.id = v := by simpa using List.find?_some hr
  have hrefl : ¬ nullsFirst r.iftype r.iftype := fun h ↦ nullsFirst_asymm h h
  exact ⟨v, r, List.mem_of_find?_eq_some hr, hid, hfirst, hspi, hfirst, ⟨r, hr, htrue, hrefl⟩,
    dpid, port, hloc⟩

theorem Stays.insertVnf {v : Int} {t : Option Int} (h : Stays v t row loc db) {n : VnfRow}
    (hn : n.id = v → n.bidirectional = some "True" ∨ ¬ nullsFirst n.iftype t) :
    Stays v t row loc (db.insertVnf n) where
  service := h.service
  first := by
    rw [Db.selectFirstVnfId, Db.serviceRows, Db.insertVnf_service]
    exact h.first
  locator := by
    obtain ⟨dpid, port, hloc⟩ := h.locator
    exact ⟨dpid, port, by rw [Db.selectLocator_insertVnf, List.head?_append, hloc, Option.some_or]⟩
  found := by
    obtain ⟨r, hr, htrue, ht⟩ := h.found
    unfold Db.insertVnf
    split
    · exact ⟨r, hr, htrue, ht⟩
    rcases Db.find_insert db.key n db.vnf v with hfind | ⟨hfind, hid, hbefore⟩
    · exact ⟨r, hfind.trans hr, htrue, ht⟩
    -- the new row comes before the one found, so it cannot come after `t`
    have hprec := hbefore r hr
    rw [UniqueKey.precedes, decide_eq_true_iff] at hprec
    have hlt := nullsFirst_of_not hprec.2.2 ht
    exact ⟨n, hfind, (hn hid).resolve_right fun hnot ↦ hnot hlt, nullsFirst_asymm hlt⟩

theorem Stays.register {v : Int} {t : Option Int} (h : Stays v t row loc db)
    (hharmless : Harmless v t msg) {db' : Db} (hok : (register db msg).result = .ok db') :
    Stays v t row loc db' := by
  unfold Controller.register at hok
  split at hok
  case isFalse =>
    rwa [← Except.ok.inj hok]
  case isTrue hreg =>
    split at hok
    case h_1 => cases hok
    case h_2 info hinfo =>
      split at hok
      case h_1 => rwa [← Except.ok.inj hok]
      case h_2 id hid =>
        rw [← Except.ok.inj hok]
        refine h.insertVnf fun hv ↦ hharmless info hreg hinfo ?_
        rw [hid, ← hv]
        rfl

theorem Stays.step {v : Int} {t : Option Int} (h : Stays v t row loc σ.db)
    (hst : Step app links σ e σ') (hharmless : ∀ msg fuel, e = .handle msg fuel → Harmless v t msg) :
    Stays v t row loc σ'.db := by
  cases hst with
  | addFlow | deleteFlow | process | enter | forward => exact h
  | @handle msg _ _ hpending fuel =>
    simp only [Operations.committed]
    split
    case h_2 => exact h
    case h_1 db' hr =>
      obtain ⟨db₁, hreg, hr⟩ := bind_result_ok.mp hr
      obtain ⟨-, -, hr⟩ := bind_result_ok.mp hr
      rw [← Except.ok.inj hr]
      exact h.register (hharmless msg fuel rfl) hreg

theorem Registered.firstVnf (h : Registered db row loc) (msg : PacketIn) : ∃ vnfId dpid port,
    (firstVnf db msg row.serviceId).result = .ok (vnfId, some loc, dpid, port) := by
  obtain ⟨-, vnfId, dpid, port, hfirst, hbi, hloc⟩ := h
  refine ⟨vnfId, dpid, port, ?_⟩
  simp only [Controller.firstVnf, fetchone_eq hfirst, fetchone_eq hbi, fetchone_eq hloc,
    Script.pure_bind, if_true]
  rfl

theorem flow_sent (hm : Matched db flowId row m)
    (hreg : ∀ db', (register db msg).result = .ok db' → Registered db' row loc)
    (hid : msg.metadata = some flowId) (fuel : ℕ) :
    (packetInHandler fuel app db msg).sent = [] ∨ ∃ entry spi si rest,
      matchEntryPoint msg.inPort row = .ok entry ∧
      (packetInHandler fuel app db msg).sent = deletions app m ++
        (msg.datapath, .add 0 8 entry
          (flowInstructions (encapActions spi si loc msg.packet.ethSrc) none (some 3))) :: rest ∧
      ∀ n ∈ rest, ChainRule app msg.packet.ethSrc row n := by
  rcases handler_sent_cases app db msg fuel with hnil | ⟨db', hok, hsent⟩
  · exact .inl hnil
  by_cases htable : msg.tableId = 2
  swap
  · exact .inl (by rw [hsent]; simp [activate, hid, htable])
  have hreg := hreg db' hok
  have hm := matched_later (register_earlier hok) hm
  obtain ⟨entry, hentry⟩ := hm.exists_entry msg.inPort
  obtain ⟨vnfId, dpid, port, hf⟩ := hreg.firstVnf msg
  obtain ⟨⟨spi, hspi⟩, -⟩ := hreg
  obtain ⟨r, hr, rfl⟩ := hm.head
  have hp := (matchEntryPoint_packs hm.common hentry).mpr hm.packs
  rw [activate_table2 hid htable hr hentry hm.common hm.packs, install_eq hspi hf,
    addFlow_of_packs hp (by simp), send_bind_sent] at hsent
  exact .inr ⟨entry, spi, _, _, hentry, hsent, (walk_ensures fuel hm.rowOf).sent⟩

def sourceKey (m : OFPMatch) (p : Int) : FlowKey :=
  ⟨0, 8, (OFPMatch.fields m).set .inPort (given .int (some p))⟩

def Guarded (m : OFPMatch) (p : Int) (T : SwitchTable) : Prop :=
  (∃ i, T (detectionKey m) = some i) ∨ ∃ i, T (sourceKey m p) = some i

def AddsSource (m : OFPMatch) (p : Int) (n : SwitchMod) : Prop := ∃ i, n = .add (sourceKey m p) i

theorem AddsSource.restores {n : SwitchMod} (h : AddsSource m p n) (T : SwitchTable) :
    Guarded m p (T.apply n) := by
  obtain ⟨i, rfl⟩ := h
  exact .inr ⟨i, if_pos rfl⟩

theorem spares_guard (hport : OFPMatch.fields m .inPort = none) {n : SwitchMod}
    (h : ∀ v, n.Touches ⟨0, 8, (OFPMatch.fields m).set .inPort v⟩ → ∃ k i, n = .add k i) :
    n.Spares (Guarded m p) := by
  intro T hG
  have hstays : ∀ v, (∃ i, T ⟨0, 8, (OFPMatch.fields m).set .inPort v⟩ = some i) →
      ∃ i, T.apply n ⟨0, 8, (OFPMatch.fields m).set .inPort v⟩ = some i := by
    rintro v ⟨i, hi⟩
    by_cases ht : n.Touches ⟨0, 8, (OFPMatch.fields m).set .inPort v⟩
    · obtain ⟨k, j, rfl⟩ := h v ht
      exact ⟨j, if_pos ht⟩
    · exact ⟨i, (FlowTable.apply_of_not_touches ht T).trans hi⟩
  have hdet := hstays none
  rw [set_inPort_none hport] at hdet
  exact hG.imp hdet (hstays _)

theorem deletions_sentTo (app : SfcApp) (m : OFPMatch) (s : Int) :
    sentTo s (mods (deletions app m)) = [] ∨ ∃ n, sentTo s (mods (deletions app m)) = [n] := by
  have hnd := app.datapaths_id
  unfold deletions
  generalize app.datapaths = dps at hnd
  induction dps with
  | nil => exact .inl rfl
  | cons dp dps ih =>
    obtain ⟨hdp, hnd⟩ := List.nodup_cons.mp hnd
    by_cases hs : dp.id = s
    · right
      have hnone : sentTo s (mods (dps.map fun dp ↦ (dp, FlowMod.delete 0 m))) = [] := by
        refine List.eq_nil_iff_forall_not_mem.mpr fun n hn ↦ ?_
        obtain ⟨n', hn', hs', -⟩ := mem_mods.mp (mem_sentTo.mp hn)
        obtain ⟨dp', hdp', rfl⟩ := List.mem_map.mp hn'
        exact hdp (List.mem_map.mpr ⟨dp', hdp', hs'.trans hs.symm⟩)
      subst hs
      refine ⟨.delete 0 (OFPMatch.fields m), ?_⟩
      rw [List.map_cons, mods, List.map_cons, sentTo_cons_self]
      exact congrArg _ hnone
    · rw [List.map_cons, mods, List.map_cons, sentTo_cons_of_ne hs]
      exact ih hnd

theorem orderly_adds (hport : OFPMatch.fields m .inPort = none) {ms : List Message}
    (h : ∀ n ∈ ms, ∃ k i, n.2.toMod = .add k i) :
    Orderly (Guarded m p) (AddsSource m p) (sentTo s (mods ms)) := by
  refine orderly_of_spares fun n hn ↦ ?_
  obtain ⟨n', hn', -, rfl⟩ := mem_mods.mp (mem_sentTo.mp hn)
  exact spares_guard hport fun _ _ ↦ h n' hn'

theorem orderly_sent (hm : Matched db flowId row m) (hflow : Alone db.flows row m)
    (hreg : ∀ msg fuel, e = .handle msg fuel → ∀ db', (register db msg).result = .ok db' →
      Registered db' row loc) (hdelete : e ≠ .deleteFlow flowId)
    (hhandled : ∀ msg fuel, e = .handle msg fuel → msg.metadata = some flowId →
      msg.datapath.id = s ∧ msg.inPort = p) :
    Orderly (Guarded m p) (AddsSource m p) (sentTo s (mods (e.sent app db))) := by
  have hport := matchCommon_inPort hm.common
  by_cases hcon : Concerns flowId e
  swap
  · refine orderly_of_spares fun n hn ↦ spares_guard hport fun v ht ↦ ?_
    obtain ⟨n', hn', -, rfl⟩ := mem_mods.mp (mem_sentTo.mp hn)
    exact absurd ht (not_touches_of_not_concerns hm hflow hcon hn' v)
  cases hcon with
  | addFlow =>
    refine orderly_adds hport fun n hn ↦ ?_
    obtain ⟨r, -, ⟨hdp, -, -, -⟩⟩ := apiAddFlow_sent hn
    exact ⟨_, _, rfl⟩
  | deleteFlow => exact absurd rfl hdelete
  | @handle msg id hid hid' fuel =>
    obtain rfl := Int.ofNat.inj hid'
    obtain ⟨hs, hp⟩ := hhandled msg fuel rfl hid
    rcases flow_sent hm (hreg msg fuel rfl) hid fuel with
      hnil | ⟨entry, spi, si, rest, hentry, hsent, hrest⟩
    · rw [Event.sent, hnil]
      exact .nil
    have hrest : Orderly (Guarded m p) (AddsSource m p) (sentTo s (mods rest)) := by
      refine orderly_adds hport fun n hn ↦ ?_
      cases hrest n hn <;> exact ⟨_, _, rfl⟩
    subst hs hp
    have hsource : AddsSource m msg.inPort (FlowMod.add 0 8 entry
        (flowInstructions (encapActions spi si loc msg.packet.ethSrc) none (some 3))).toMod := by
      refine ⟨flowInstructions (encapActions spi si loc msg.packet.ethSrc) none (some 3), ?_⟩
      rw [FlowMod.toMod, matchEntryPoint_fields hm.common hentry, sourceKey]
    rw [Event.sent, hsent, mods, List.map_append, sentTo_append, List.map_cons, sentTo_cons_self]
    rcases deletions_sentTo app m msg.datapath.id with hdel | ⟨n, hdel⟩
    · rw [show sentTo msg.datapath.id ((deletions app m).map _) = [] from hdel]
      exact .keep (fun T _ ↦ hsource.restores T) hrest
    · rw [show sentTo msg.datapath.id ((deletions app m).map _) = [n] from hdel]
      exact .swap n hsource hrest

def LeadsTo (s : Int) (row : FlowRow) (loc : String) (σ : State) : Prop :=
  ∀ q loc' k i, SourceEntry row q loc' k i → σ.switches.Holds s k i → loc' = loc

theorem sourceEntry_loc {q : Int} {loc' : String} {k : FlowKey} {spi si : Int} {src : String}
    (h : SourceEntry row q loc' k (flowInstructions (encapActions spi si loc src) none (some 3))) :
    loc' = loc := by
  obtain ⟨a, spi', si', src', -, -, hi⟩ := h
  have hactions := flowInstructions_actions_inj hi
  simp only [encapActions, List.cons.injEq, Action.setField.injEq, Value.str.injEq] at hactions
  exact hactions.2.2.2.2.1.2.symm

theorem LeadsTo.step (h : LeadsTo s row loc σ) (hb : Base app db σ) (hm : Matched db flowId row m)
    (hflow : Alone db.flows row m) (hreg : ∀ msg fuel, e = .handle msg fuel → ∀ db',
      (register σ.db msg).result = .ok db' → Registered db' row loc)
    (hst : Step app links σ e σ') : LeadsTo s row loc σ' := by
  intro q loc' k i hsource hk
  rcases hst.holds hk with hk | ⟨n, hn, -, hadd⟩
  · exact h q loc' k i hsource hk
  have hm := hb.matched hm
  rw [← hb.flows] at hflow
  obtain ⟨msg, fuel, rfl, hid, -, -⟩ := adds_source hm hflow hn hadd hsource
  rcases flow_sent hm (hreg msg fuel rfl) hid fuel with
    hnil | ⟨entry, spi, si, rest, hentry, hsent, hrest⟩
  · rw [Event.sent, hnil] at hn
    cases hn
  rw [Event.sent, hsent] at hn
  rcases List.mem_cons.mp (mem_of_add hn hadd) with rfl | hn
  · obtain ⟨rfl, rfl⟩ := Mod.add.inj hadd
    exact sourceEntry_loc hsource
  · obtain ⟨a, spi', si', src, -, rfl, -⟩ := hsource
    cases hrest n hn with
    | middle => cases congrArg Key.priority (Mod.add.inj hadd).1
    | aware | delivery | last => cases congrArg Key.table (Mod.add.inj hadd).1

theorem Stays.registers {v : Int} {t : Option Int} (h : Stays v t row loc db)
    (hharmless : ∀ msg fuel, e = .handle msg fuel → Harmless v t msg) :
    ∀ msg fuel, e = .handle msg fuel → ∀ db', (Controller.register db msg).result = .ok db' →
      Registered db' row loc :=
  fun msg fuel he _ hok ↦ (h.register (hharmless msg fuel he) hok).registered

/-- A packet of the flow goes to the controller, or encapsulated towards the VNF at `loc`. -/
def Served (loc : String) (pkt : Packet) (outs : List Out) : Prop :=
  (∃ md, outs = [.controller 2 md (.plain pkt)]) ∨
    ∃ spi si src, outs = [.normal (.ether loc src spi si (.plain pkt))]

theorem Guarded.served {T : SwitchTable} (h : Guarded m p T) (hT : Sound db.flows T)
    (hm : matchCommon row = .ok m) (hflow : Alone db.flows row m)
    (hleads : ∀ q loc' k i, SourceEntry row q loc' k i → T k = some i → loc' = loc) {pkt : Packet}
    (hpkt : FlowPacket m pkt) {outs : List Out}
    (hp : Passes T p 0 0 (.plain pkt) outs) : Served loc pkt outs := by
  obtain ⟨k, i, ha, hprio⟩ :
      ∃ k i, T.Applies 0 ((Frame.plain pkt).header p) k i ∧ k.priority = 8 := by
    rcases h with ⟨i, hi⟩ | ⟨i, hi⟩
    · exact ⟨_, i, ⟨hi, rfl, (le_header_of_inPort_none _ _ (matchCommon_inPort hm)).mpr hpkt.le⟩, rfl⟩
    · refine ⟨_, i, ⟨hi, rfl, Match.set_le_set hpkt.le .inPort fun x hx ↦ ?_⟩, rfl⟩
      exact given_eq_some hx
  rcases guarded_passes hT hflow hpkt ha hprio hp with
    hc | ⟨q, loc', k, i, spi, si, src, hsource, hit, houts⟩
  · exact .inl hc
  · obtain rfl := hleads q loc' k i hsource hit.entry
    exact .inr ⟨spi, si, src, houts⟩

/-- Switch `s` has the flow's detection entry, nothing under way to it clears this entry, and any
source entry that it has for the flow leads to `loc`. -/
structure Detecting (s : Int) (flowId : ℕ) (row : FlowRow) (m : OFPMatch) (loc : String) (σ : State) :
    Prop where
  entry : σ.switches.tables s (detectionKey m) = some (detectionInst flowId)
  queue : ∀ n ∈ σ.switches.queue s, n.Touches (detectionKey m) → ∃ i, n = .add (detectionKey m) i
  sources : LeadsTo s row loc σ

theorem Detecting.secure (h : Detecting s flowId row m loc σ) (hb : Base app db σ)
    (hport : OFPMatch.fields m .inPort = none) (p : Int) :
    Secure (Guarded m p) (AddsSource m p) σ.switches s := by
  refine .inl ⟨.inl ⟨_, h.entry⟩, orderly_of_spares fun n hn ↦ spares_guard hport fun v ht ↦ ?_⟩
  cases n with
  | add k i => exact ⟨k, i, rfl⟩
  | delete t c =>
    -- a delete asks for no port, so that it would reach the detection entry as well
    obtain ⟨r, -, hplaced⟩ := hb.queue s _ hn
    have hle : c ≤ OFPMatch.fields m := Match.le_of_le_set hplaced.delete_inPort ht.2
    obtain ⟨i, hi⟩ := h.queue _ hn ⟨ht.1, hle⟩
    cases hi

/-- In every run in which a flow that switch `s` detects is not deleted, and packet-ins of the flow
are handled for port `p` of switch `s` only: packets of the flow that come in there are sent to the
controller or encapsulated towards the first VNF, unless the next flow-mod for the switch is the
source entry. No registration may hide the first VNF's row. -/
theorem no_bypass (hm : Matched db flowId row m) (hflow : Alone db.flows row m)
    {before es : List Event} {σ₁ : State} (hbefore : Run (Step app links) (start db) before σ₁)
    (hreg : Registered σ₁.db row loc) (hdetecting : Detecting s flowId row m loc σ₁)
    (hrun : Run (Step app links) σ₁ es σ) (hdelete : .deleteFlow flowId ∉ es)
    (hhandled : ∀ msg fuel, .handle msg fuel ∈ es → msg.metadata = some flowId →
      msg.datapath.id = s ∧ msg.inPort = p)
    (hharmless : ∀ msg fuel, .handle msg fuel ∈ es → ∀ v,
      (σ₁.db.selectFirstVnfId row.serviceId).head? = some v →
        ∀ r ∈ σ₁.db.vnf, r.id = v → Harmless v r.iftype msg) :
    (∃ i ms, σ.switches.queue s = .add (sourceKey m p) i :: ms) ∨
      ∀ pkt outs, FlowPacket m pkt → Passes (σ.switches.tables s) p 0 0 (.plain pkt) outs →
        Served loc pkt outs := by
  have hport := matchCommon_inPort hm.common
  have hb₁ := (Base.start app db).run hbefore
  obtain ⟨v, r, hr, hid, hfirst, hstays⟩ := hreg.stays
  let Inv : State → Prop := fun τ ↦ Base app db τ ∧ Stays v r.iftype row loc τ.db ∧
    LeadsTo s row loc τ ∧ Secure (Guarded m p) (AddsSource m p) τ.switches s
  have hinv : Inv σ := by
    refine (hrun.restrict fun e he ↦ he).invariant Inv ?_ ⟨hb₁, hstays, hdetecting.sources,
      hdetecting.secure hb₁ hport p⟩
    rintro τ e τ' ⟨hb, hstays, hleads, hsecure⟩ ⟨hst, he⟩
    have hsafe : ∀ msg fuel, e = .handle msg fuel → Harmless v r.iftype msg := by
      rintro msg fuel rfl
      exact hharmless msg fuel he v hfirst r hr hid
    have hreg := hstays.registers hsafe
    refine ⟨hb.step hst, hstays.step hst hsafe, hleads.step hb hm hflow hreg hst, ?_⟩
    rcases hst.switches with ⟨s', -, hs⟩ | hs
    · rw [hs]
      exact hsecure.process (fun r hr T ↦ hr.restores T) s'
    · rw [hs]
      refine hsecure.post (orderly_sent (hb.matched hm) (hb.flows ▸ hflow) hreg ?_ ?_)
      · rintro rfl
        exact hdelete he
      · rintro msg fuel rfl hid
        exact hhandled msg fuel he hid
  obtain ⟨hb, -, hleads, hsecure⟩ := hinv
  rcases hsecure with ⟨hG, -⟩ | ⟨r, ms, hq, ⟨i, rfl⟩, -⟩
  · right
    intro pkt outs hpkt hp
    refine hG.served (sound_of_base hb s) hm.common hflow ?_ hpkt hp
    exact fun q loc' k i hsource hk ↦ hleads q loc' k i hsource (.inl hk)
  · exact .inl ⟨i, ms, hq⟩

section Demo

def demoHandled : State :=
  { demoWaiting.post (packetInHandler 2 Demo.app Demo.db Demo.packetIn).sent with
    db := Operations.committed Demo.db (packetInHandler 2 Demo.app Demo.db Demo.packetIn)
    pending := [] }

def demoGap : State := demoHandled.process 4

theorem demo_gap : Run (Step Demo.app demoLinks) demoReady
    [.enter 4 1 Demo.packet, .forward 4 1 (.plain Demo.packet), .handle Demo.packetIn 2, .process 4]
    demoGap := by
  have hpending : demoWaiting.pending = [] ++ Demo.packetIn :: [] := rfl
  have hhandle : Step Demo.app demoLinks demoWaiting (.handle Demo.packetIn 2) demoHandled :=
    .handle hpending 2
  exact demo_waiting.trans (.cons hhandle (.one (.process _ 4)))

theorem demo_covers : demoGap.switches.Covers 4
    (keysOn [] 4 ++ FlowTable.addedKeys (sentTo 4 (mods (apiAddFlow Demo.app Demo.db 1).sent)) ++
      FlowTable.addedKeys (sentTo 4 (mods (packetInHandler 2 Demo.app Demo.db Demo.packetIn).sent))) := by
  have hready : demoReady.switches.Covers 4 _ :=
    covers_process (covers_post (covers_start Demo.db 4) (apiAddFlow Demo.app Demo.db 1).sent) 4
  have hhandled : demoHandled.switches.Covers 4 _ :=
    covers_post hready (packetInHandler 2 Demo.app Demo.db Demo.packetIn).sent
  exact covers_process hhandled 4

theorem demo_registered : Registered Demo.db (deriveTypes Demo.flow1) "00:00:00:00:00:01" :=
  ⟨⟨6, rfl⟩, 1, some 1, some 1, by decide, by decide, by decide⟩

theorem demo_alone : Alone Demo.db.flows (deriveTypes Demo.flow1) Demo.flow1Match := by
  intro r hr hne m' hm'
  have hr : r = Demo.flow1 ∨ r = Demo.flow2 := by simpa [Demo.db] using hr
  rcases hr with rfl | rfl
  · exact absurd rfl hne
  · obtain rfl : Demo.flow2Match = m' := Except.ok.inj (Demo.flow2_common.symm.trans hm')
    exact ⟨.ipv4Src, .int 0x0A000001, .int 0x0A000004, by decide, by decide, by decide⟩

theorem demo_detecting : Detecting 4 1 (deriveTypes Demo.flow1) Demo.flow1Match "00:00:00:00:00:01"
    demoReady where
  entry := by decide +kernel
  queue := by
    have hempty : (demoReady.switches.queue 4).isEmpty := by decide +kernel
    rw [List.isEmpty_iff.mp hempty]
    rintro n ⟨⟩
  sources := by
    have hbase := Base.start Demo.app Demo.db
    have hstart : LeadsTo 4 (deriveTypes Demo.flow1) "00:00:00:00:00:01" (start Demo.db) :=
      fun _ _ _ _ hsource hk ↦ absurd hk (start_no_source hsource 4)
    have hadd : Step Demo.app demoLinks (start Demo.db) (.addFlow 1) _ := .addFlow _ 1
    have hadded := hstart.step hbase Demo.flow1_matched demo_alone (fun _ _ h ↦ by cases h) hadd
    have hprocess : Step Demo.app demoLinks _ (.process 4) demoReady := .process _ 4
    exact hadded.step (hbase.step hadd) Demo.flow1_matched demo_alone (fun _ _ h ↦ by cases h) hprocess

theorem no_bypass_demo : ∃ outs, Passes ((demoGap.process 4).switches.tables 4) 1 0 0
    (.plain Demo.packet) outs ∧ Served "00:00:00:00:00:01" Demo.packet outs := by
  have hrun := demo_gap.trans (.one (.process demoGap 4))
  have hsound := sound_of_base (((Base.start Demo.app Demo.db).run demo_ready).run hrun) 4
  have hit : ((demoGap.process 4).switches.tables 4).Hits 0 ((Frame.plain Demo.packet).header 1)
      Demo.flow1Source Demo.flow1SourceInst :=
    (covers_process demo_covers 4).listed.hits (by decide +kernel) (by decide +kernel)
  have hpasses : Passes ((demoGap.process 4).switches.tables 4) 1 0 0 (.plain Demo.packet)
      [.normal (.ether "00:00:00:00:00:01" "00:00:00:00:00:04" 6 2 (.plain Demo.packet))] :=
    .goto hit rfl ((passes_table3 hsound).mpr rfl)
  refine ⟨_, hpasses, ?_⟩
  have hhandled : ∀ msg fuel, .handle msg fuel ∈ [Event.enter 4 1 Demo.packet,
      .forward 4 1 (.plain Demo.packet), .handle Demo.packetIn 2, .process 4, .process 4] →
      msg.metadata = some 1 → msg.datapath.id = 4 ∧ msg.inPort = 1 := by
    rintro msg fuel hmem -
    obtain ⟨rfl, -⟩ : msg = Demo.packetIn ∧ fuel = 2 := by simpa using hmem
    exact ⟨rfl, rfl⟩
  have hharmless : ∀ msg fuel, .handle msg fuel ∈ [Event.enter 4 1 Demo.packet,
      .forward 4 1 (.plain Demo.packet), .handle Demo.packetIn 2, .process 4, .process 4] →
      ∀ v, (Demo.db.selectFirstVnfId (deriveTypes Demo.flow1).serviceId).head? = some v →
        ∀ r ∈ Demo.db.vnf, r.id = v → Harmless v r.iftype msg := by
    rintro msg fuel hmem v - r - - info hreg
    obtain ⟨rfl, -⟩ : msg = Demo.packetIn ∧ fuel = 2 := by simpa using hmem
    exact absurd hreg (by decide)
  rcases no_bypass Demo.flow1_matched demo_alone demo_ready demo_registered demo_detecting hrun
    (by simp) hhandled hharmless with ⟨i, ms, hq⟩ | hserved
  · have hempty : ((demoGap.process 4).switches.queue 4).isEmpty := by decide +kernel
    rw [hq] at hempty
    cases hempty
  · exact hserved Demo.packet _ ⟨by decide, by decide⟩ hpasses

/-- Between the delete and the source entry, a packet of h4 is forwarded plain. -/
theorem demo_forwarded_plain :
    Run (Step Demo.app demoLinks) (start Demo.db) [.addFlow 1, .process 4] demoReady ∧
    demoReady.switches.tables 4 (detectionKey Demo.flow1Match) = some (detectionInst 1) ∧
    Run (Step Demo.app demoLinks) demoReady
      [.enter 4 1 Demo.packet, .forward 4 1 (.plain Demo.packet), .handle Demo.packetIn 2, .process 4]
      demoGap ∧
    Passes (demoGap.switches.tables 4) 1 0 0 (.plain Demo.packet) [.normal (.plain Demo.packet)] := by
  refine ⟨demo_ready, demo_detecting.entry, demo_gap, ?_⟩
  have hsound := sound_of_base (((Base.start Demo.app Demo.db).run demo_ready).run demo_gap) 4
  have hit : (demoGap.switches.tables 4).Hits 0 ((Frame.plain Demo.packet).header 1) (missKey 0)
      [.applyActions [], .gotoTable 3] :=
    demo_covers.listed.hits (by decide +kernel) (by decide +kernel)
  exact .goto hit rfl ((passes_table3 hsound).mpr rfl)

theorem demo_plain_after_other : ∃ es σ, Run (Step Demo.app demoLinks) (demoGap.process 4) es σ ∧
    .deleteFlow 1 ∉ es ∧ (σ.switches.queue 4).isEmpty ∧
    Passes (σ.switches.tables 4) 1 0 0 (.plain Demo.packet) [.normal (.plain Demo.packet)] := by
  let detecting : State := (demoGap.process 4).process 3
  let entered : State := { detecting with flight := [(3, 1, .plain Demo.packet)] }
  let msg : PacketIn := { Demo.packetIn with datapath := ⟨3, 0⟩ }
  let waiting : State := { detecting with pending := [msg] }
  have hready : demoReady.switches.Covers 3 _ :=
    covers_process (covers_post (covers_start Demo.db 3) (apiAddFlow Demo.app Demo.db 1).sent) 4
  have hhandled : demoHandled.switches.Covers 3 _ :=
    covers_post hready (packetInHandler 2 Demo.app Demo.db Demo.packetIn).sent
  have hcovers : detecting.switches.Covers 3 _ :=
    covers_process (covers_process (covers_process hhandled 4) 4) 3
  have hdetecting : Run (Step Demo.app demoLinks) (start Demo.db) _ detecting :=
    demo_ready.trans (demo_gap.trans (.cons (.process _ 4) (.one (.process _ 3))))
  have hsound₃ := sound_of_base ((Base.start Demo.app Demo.db).run hdetecting) 3
  have hit₃ : (detecting.switches.tables 3).Hits 0 ((Frame.plain Demo.packet).header 1)
      (detectionKey Demo.flow1Match) (detectionInst 1) :=
    hcovers.listed.hits (by decide +kernel) (by decide +kernel)
  have hpass : Passes (entered.switches.tables 3) 1 0 0 (.plain Demo.packet)
      [.controller 2 (writeMetadata 0 1 0xffffffff) (.plain Demo.packet)] :=
    .goto hit₃ (run_detection _ _ 1) ((passes_table2 hsound₃).mpr rfl)
  have hflight : entered.flight = [] ++ (3, 1, .plain Demo.packet) :: [] := rfl
  have hforward : Step Demo.app demoLinks entered (.forward 3 1 (.plain Demo.packet)) waiting :=
    .forward hflight hpass [] (by simp) [] (by simp)
  have hpending : waiting.pending = [] ++ msg :: [] := rfl
  let served : State :=
    { waiting.post (packetInHandler 2 Demo.app waiting.db msg).sent with
      db := Operations.committed waiting.db (packetInHandler 2 Demo.app waiting.db msg)
      pending := [] ++ [] }
  have hhandle : Step Demo.app demoLinks waiting (.handle msg 2) served := .handle hpending 2
  have hrun : Run (Step Demo.app demoLinks) (demoGap.process 4) _ (served.process 4) :=
    .cons (.process _ 3) (.cons (.enter _ rfl Demo.packet) (.cons hforward (.cons hhandle
      (.one (.process _ 4)))))
  refine ⟨_, served.process 4, hrun, by simp, by decide +kernel, ?_⟩
  have hall : Run (Step Demo.app demoLinks) (start Demo.db) _ (served.process 4) :=
    demo_ready.trans (demo_gap.trans (.cons (.process _ 4) hrun))
  have hcovers₄ : (served.process 4).switches.Covers 4 _ :=
    covers_process (covers_post (covers_process (covers_process demo_covers 4) 3)
      (packetInHandler 2 Demo.app waiting.db msg).sent) 4
  have hit : ((served.process 4).switches.tables 4).Hits 0 ((Frame.plain Demo.packet).header 1)
      (missKey 0) [.applyActions [], .gotoTable 3] :=
    hcovers₄.listed.hits (by decide +kernel) (by decide +kernel)
  have hsound := sound_of_base ((Base.start Demo.app Demo.db).run hall) 4
  exact .goto hit rfl ((passes_table3 hsound).mpr rfl)

end Demo

end NshSfc.Bypass
