import NshSfc.Rollout
import NshSfc.Sharing

namespace NshSfc.Hosting

open Library Library.Script Python Database OpenFlow RowMatch App Packets Controller Sent Fuel
  Handler Switch Async Sites Linked Chain ChainFrames Pipeline Journey EndToEnd Allocation Indexing
  Program Decoding Agent Registrations Announcements Deployment Rollout Histories Sharing

open Operations (Op)

variable {app : SfcApp} {db db' : Db} {T : Network} {o : Op} {ops : List Op}

section Preparation

/-- What may be done before the first packet of a flow is reported. A registration says nothing of a
flow. -/
inductive Preparing : Op → Prop
  | addFlow (flowId : Int) : Preparing (.addFlow flowId)
  | deleteFlow (flowId : Int) : Preparing (.deleteFlow flowId)
  | register {msg : PacketIn} (h : msg.metadata = none) (fuel : ℕ) : Preparing (.packetIn msg fuel)

theorem Preparing.regular (ho : Preparing o) (hflow : flowOf o ≠ none) : Regular app db o := by
  cases ho with
  | addFlow flowId => exact .addFlow flowId
  | deleteFlow flowId => exact .deleteFlow flowId
  | register h fuel => exact absurd (by rw [flowOf, h]; rfl) hflow

theorem Preparing.sent_congr (ho : Preparing o) (hflows : db.flows = db'.flows) :
    Consumption.sent app db o = Consumption.sent app db' o := by
  have hselect : ∀ id, db.selectFlows id = db'.selectFlows id := by
    intro id
    rw [Db.selectFlows, Db.selectFlows, hflows]
  cases ho with
  | addFlow flowId => rw [Consumption.sent, Consumption.sent, apiAddFlow, apiAddFlow, hselect]
  | deleteFlow flowId =>
    rw [Consumption.sent, Consumption.sent, apiDeleteFlow, apiDeleteFlow, hselect]
  | @register msg h fuel =>
    have hnil : ∀ db, Consumption.sent app db (.packetIn msg fuel) = [] := by
      intro db
      refine List.eq_nil_iff_forall_not_mem.mpr fun n hn ↦ ?_
      obtain ⟨flowId, row, m, hid, -⟩ := handler_sends hn
      cases h.symm.trans hid
    rw [hnil, hnil]

theorem step_eq (app : SfcApp) (σ : Operations.State) (o : Op) :
    Operations.step app σ o = ⟨(Operations.step app σ o).db, effect app σ.db σ.tables o⟩ := by
  cases o <;> rfl

theorem foldl_preparing (hops : ∀ o ∈ ops, Preparing o) (hflows : db.flows = db'.flows)
    (T : Network) : (ops.foldl (Operations.step app) ⟨db, T⟩).tables =
      ops.foldl (effect app db') T := by
  induction ops generalizing db T with
  | nil => rfl
  | cons o ops ih =>
    obtain ⟨ho, hrest⟩ := List.forall_mem_cons.mp hops
    have hnext := (Operations.step_flows app ⟨db, T⟩ o).trans hflows
    rw [List.foldl_cons, List.foldl_cons, step_eq, ih hrest hnext, effect, effect,
      ho.sent_congr hflows]

end Preparation

section Deployment

variable {g : Globals} {hosts : ℕ → Host} {dp : ℕ → Datapath} {nodes : ℕ} {Kr : List ℕ}
  {v : LpVariable → Int} {vars : List LpVariable} {P : Placement nodes Kr.length (size Kr)}
  {links : Links} {σ : State} {es : List Async.Event} {ids : ℕ → Int} {r : ℕ} {spi port : Int}

/-- Every node has a host of its own at port `port` of a connected switch. -/
structure Wired (app : SfcApp) (hosts : ℕ → Host) (dp : ℕ → Datapath) (nodes : ℕ) (port : Int) :
    Prop where
  connected : ∀ n < nodes, dp n ∈ app.datapaths
  dpid : ∀ n < nodes, (dp n).id = (hosts n).dpid
  port : ∀ n < nodes, (hosts n).port = port
  switches : ∀ n < nodes, ∀ n' < nodes, (hosts n).dpid = (hosts n').dpid → n = n'
  macs : ∀ n < nodes, ∀ n' < nodes, (hosts n).mac = (hosts n').mac → n = n'

def placedVnf (hosts : ℕ → Host) (dp : ℕ → Datapath) (P : Placement nodes Kr.length (size Kr))
    (ids : ℕ → Int) (r k : ℕ) : Site :=
  ⟨ids k, (hosts (P.bin r k)).mac, dp (P.bin r k), (hosts (P.bin r k)).port⟩

def placedChain (hosts : ℕ → Host) (dp : ℕ → Datapath) (P : Placement nodes Kr.length (size Kr))
    (ids : ℕ → Int) (r : ℕ) : List Site := (List.range (size Kr r)).map (placedVnf hosts dp P ids r)

/-- The VNFs of request `r` have the ids `ids`, and service `spi` is to go through them in order. -/
structure Offered (g : Globals) (hosts : ℕ → Host) (dp : ℕ → Datapath)
    (P : Placement nodes Kr.length (size Kr)) (db : Db) (ids : ℕ → Int) (r : ℕ) (spi : Int) :
    Prop where
  request : r < Kr.length
  length_le : size Kr r ≤ 255
  id_ne_zero : ∀ k < size Kr r, ids k ≠ 0
  requested : ∀ k < size Kr r, ∃ name vnfId, Requested g Kr r k name vnfId ∧
    integerColumn vnfId = some (ids k)
  rows : (db.serviceRows (some spi)).Perm (linkRows (fun l ↦ l.length) spi none
    (placedChain hosts dp P ids r))

def Registered (es : List Async.Event) (id : Int) : Prop :=
  ∃ msg fuel, .handle msg fuel ∈ es ∧ isRegistration msg ∧
    ∃ info, msg.packet.registration = some info ∧ info.vnfId = some id

theorem stored_bidirectional {m : RegisterDict} {info : Registration} (h : stored m = some info) :
    info.bidirectional = some (String.ofList m.bidirectional) := by
  obtain ⟨vnfId, -, h⟩ := Option.bind_eq_some_iff.mp h
  obtain ⟨typeId, -, h⟩ := Option.bind_eq_some_iff.mp h
  obtain ⟨groupId, -, h⟩ := Option.bind_eq_some_iff.mp h
  obtain ⟨iftype, -, h⟩ := Option.bind_eq_some_iff.mp h
  obtain rfl := Option.some.inj h
  rfl

theorem bidirectional_of_run (h : Setting g hosts v vars P db es)
    (hrun : Run (Step app links) (start db) es σ) (hempty : db.vnf = [])
    (hthree : g.iftype = "3".toList) {row : VnfRow} (hrow : row ∈ σ.db.vnf) :
    row.bidirectional = some "True" := by
  rw [db_of_run hrun] at hrow
  obtain ⟨r', hr', info, id, hreg, hinfo, hid, rfl⟩ :=
    (rows_of_handled hrow).resolve_left (by simp [start, hempty])
  have hmem := (mem_handlings.mp hr').2
  obtain ⟨⟨n, datagrams, m, hreach, hm, -, -, -, hsame⟩, -⟩ :=
    handled_allowed h.spared hrun h.permitted hmem hreg
  obtain ⟨datagram, -, r, k, -, -, -, -, -, -, -, hb⟩ :=
    announces_of_sent h.solution h.listed h.readable hreach hm
  have htrue : obidirectional g.iftype = .ok "True".toList := by
    rw [hthree]
    decide
  rw [htrue] at hb
  have hstored := stored_bidirectional (hsame info hinfo)
  rw [← Except.ok.inj hb] at hstored
  exact hstored

theorem selectBidirectional_of_run (h : Setting g hosts v vars P db es)
    (hrun : Run (Step app links) (start db) es σ) (hempty : db.vnf = [])
    (hthree : g.iftype = "3".toList) {id : Int} {p : Place} (hp : Located σ.db id p) :
    (σ.db.selectBidirectional id).head? = some (some "True") := by
  have hmem := List.mem_of_head? hp
  obtain ⟨row, hrow, -⟩ := List.mem_map.mp hmem
  obtain ⟨hrow, hid⟩ := List.mem_filter.mp hrow
  have hid : row.id = id := (of_decide_eq_true hid).1
  have hne : σ.db.selectBidirectional id ≠ [] := by
    refine List.ne_nil_of_mem (List.mem_map.mpr ⟨row, List.mem_filter.mpr ⟨hrow, ?_⟩, rfl⟩)
    simpa using hid
  obtain ⟨b, rest, hsel⟩ := List.exists_cons_of_ne_nil hne
  have hb : b ∈ σ.db.selectBidirectional id := hsel ▸ List.mem_cons_self
  obtain ⟨row', hrow', rfl⟩ := List.mem_map.mp hb
  rw [hsel, List.head?_cons,
    bidirectional_of_run h hrun hempty hthree (List.mem_filter.mp hrow').1]

theorem located_of_run (h : Setting g hosts v vars P db es)
    (hrun : Run (Step app links) (start db) es σ) (hempty : db.vnf = []) (hdistinct : Distinct g Kr)
    (hthree : g.iftype = "3".toList) (hoffered : Offered g hosts dp P db ids r spi) {k : ℕ}
    (hk : k < size Kr r) (hreg : Registered es (ids k)) :
    Located σ.db (ids k) (hosts (P.bin r k)).place := by
  obtain ⟨name, vnfId, hreq, hid⟩ := hoffered.requested k hk
  obtain ⟨msg, fuel, hmem, hreg, info, hinfo, hvnf⟩ := hreg
  have hcolumn : integerColumn g.iftype = some 3 := by
    rw [hthree]
    decide
  exact h.located hrun hempty hdistinct hcolumn hreq hid hmem hreg hinfo hvnf

theorem placedChain_nodup {α : Type} {f : Site → α} (hr : r < Kr.length)
    (hf : ∀ n < nodes, ∀ n' < nodes, ∀ k k', f ⟨ids k, (hosts n).mac, dp n, (hosts n).port⟩ =
      f ⟨ids k', (hosts n').mac, dp n', (hosts n').port⟩ → n = n') :
    ((placedChain hosts dp P ids r).map f).Nodup := by
  rw [placedChain, List.map_map]
  refine List.Nodup.map_on (fun k hk k' hk' heq ↦ ?_) List.nodup_range
  have hk := List.mem_range.mp hk
  have hk' := List.mem_range.mp hk'
  have hbin := hf _ (P.bin_lt r hr k hk) _ (P.bin_lt r hr k' hk') k k' heq
  exact P.bin_inj r hr k hk k' hk' hbin

theorem earlier_of_run {τ : State} (hrun : Run (Step app links) τ es σ) : Earlier τ.db σ.db :=
  hrun.invariant (fun υ ↦ Earlier τ.db υ.db) (fun _ _ _ hυ hst ↦ hυ.trans hst.earlier) (.refl τ.db)

theorem deployed_of_run (h : Setting g hosts v vars P db es)
    (hrun : Run (Step app links) (start db) es σ) (hempty : db.vnf = []) (hdistinct : Distinct g Kr)
    (hthree : g.iftype = "3".toList) (hwired : Wired app hosts dp nodes port)
    (hoffered : Offered g hosts dp P db ids r spi)
    (hregs : ∀ k < size Kr r, Registered es (ids k)) :
    Deployed app σ.db spi port (placedChain hosts dp P ids r) := by
  have hr := hoffered.request
  have hlocated : ∀ k < size Kr r, Located σ.db (ids k) (hosts (P.bin r k)).place := fun k hk ↦
    located_of_run h hrun hempty hdistinct hthree hoffered hk (hregs k hk)
  have hall : ∀ {Q : Site → Prop}, (∀ k < size Kr r, Q (placedVnf hosts dp P ids r k)) →
      ∀ v ∈ placedChain hosts dp P ids r, Q v := by
    intro Q hQ v hv
    obtain ⟨k, hk, rfl⟩ := List.mem_map.mp hv
    exact hQ k (List.mem_range.mp hk)
  have hswitches : ((placedChain hosts dp P ids r).map (·.dp.id)).Nodup := by
    refine placedChain_nodup hr fun n hn n' hn' _ _ heq ↦ hwired.switches n hn n' hn' ?_
    rw [← hwired.dpid n hn, ← hwired.dpid n' hn']
    exact heq
  refine ⟨⟨?_, hall hoffered.id_ne_zero, ?_, ?_, ?_, ?_, attachments_of_switches hswitches⟩, ?_,
    hswitches, ?_⟩
  · simpa [placedChain] using hoffered.length_le
  · rw [Db.serviceRows, (earlier_of_run hrun).service]
    exact hoffered.rows
  · exact hall fun k hk ↦ selectBidirectional_of_run h hrun hempty hthree (hlocated k hk)
  · refine hall fun k hk ↦ ?_
    have hplace := hlocated k hk
    rw [Located, Host.place, ← hwired.dpid _ (P.bin_lt r hr k hk)] at hplace
    exact hplace
  · exact hall fun k hk ↦ hwired.connected _ (P.bin_lt r hr k hk)
  · exact hall fun k hk ↦ hwired.port _ (P.bin_lt r hr k hk)
  · exact placedChain_nodup hr fun n hn n' hn' _ _ heq ↦ hwired.macs n hn n' hn' heq

end Deployment

section Run

variable {g : Globals} {hosts : ℕ → Host} {dp : ℕ → Datapath} {nodes : ℕ} {Kr : List ℕ}
  {v : LpVariable → Int} {vars : List LpVariable} {P : Placement nodes Kr.length (size Kr)}
  {links : Links} {σ₁ σ₂ : State} {es₁ es₂ : List Async.Event} {ids : ℕ → Int} {r : ℕ}
  {spi port : Int} {flowId fuel : ℕ} {msg : PacketIn} {row : FlowRow} {c : OFPMatch}
  {net : Surroundings}

/-- A flow of the service is reported from a switch with none of the hosts of the request. -/
structure Reports (app : SfcApp) (db : Db) (hosts : ℕ → Host)
    (P : Placement nodes Kr.length (size Kr)) (r : ℕ) (flowId : ℕ) (msg : PacketIn) (row : FlowRow)
    (c : OFPMatch) (spi : Int) : Prop where
  ofFlow : OfFlow app flowId msg
  matched : Matched db flowId row c
  ethType : row.ethType = some 0x0800
  service : row.serviceId = some spi
  size_pos : 0 < size Kr r
  elsewhere : ∀ k < size Kr r, (hosts (P.bin r k)).dpid ≠ msg.datapath.id

theorem Reports.activation (h : Reports app db hosts P r flowId msg row c spi)
    (hearlier : Earlier db db') (hwired : Wired app hosts dp nodes port)
    (hoffered : Offered g hosts dp P db ids r spi)
    (hdeployed : Deployed app db' spi port (placedChain hosts dp P ids r)) :
    Activation app db' flowId msg row c spi port (placedChain hosts dp P ids r) where
  deployed := hdeployed
  ne_nil := by
    rw [placedChain, ne_eq, List.map_eq_nil_iff, List.range_eq_nil]
    exact h.size_pos.ne'
  ofFlow := h.ofFlow
  matched := matched_later hearlier h.matched
  ethType := h.ethType
  service := h.service
  hosts := by
    intro v hv
    obtain ⟨k, hk, rfl⟩ := List.mem_map.mp hv
    have hk := List.mem_range.mp hk
    have hdpid := hwired.dpid _ (P.bin_lt r hoffered.request k hk)
    rw [placedVnf, hdpid]
    exact h.elsewhere k hk

theorem ends_of_activation {vs : List Site} (h : Activation app db flowId msg row c spi port vs)
    (hfuel : vs.length ≤ fuel) : Ends (packetInHandler fuel app db msg) := by
  obtain ⟨m, entry, hi⟩ := h.installed hfuel
  cases vs with
  | nil => exact absurd rfl h.ne_nil
  | cons v rest =>
    rw [Sites.handler_eq hi.placed h.ofFlow h.matched h.service hi.middleMatch hi.entryMatch hfuel]
    exact ends_of_ok rfl

theorem preparing_of_run (h : Setting g hosts v vars P db es₁)
    (hrun : Run (Step app links) (start db) es₁ σ₁)
    (hfirst : ∀ msg fuel, .handle msg fuel ∈ es₁ → isRegistration msg) :
    ∀ o ∈ es₁.filterMap Async.Event.op, Preparing o := by
  intro o ho
  obtain ⟨e, he, hop⟩ := List.mem_filterMap.mp ho
  cases e with
  | addFlow flowId =>
    obtain rfl := Option.some.inj hop
    exact .addFlow flowId
  | deleteFlow flowId =>
    obtain rfl := Option.some.inj hop
    exact .deleteFlow flowId
  | handle msg fuel =>
    obtain rfl := Option.some.inj hop
    have hallowed := handled_allowed h.spared hrun h.permitted he (hfirst msg fuel he)
    exact .register hallowed.2 fuel
  | process | enter | forward => cases hop

theorem tables_of_phases (hrun₁ : Run (Step app links) (start db) es₁ σ₁)
    (hpreparing : ∀ o ∈ es₁.filterMap Async.Event.op, Preparing o)
    (hrun₂ : Run (Step app links) σ₁ es₂ σ₂)
    (hregular : ∀ o ∈ es₂.filterMap Async.Event.op, Regular app σ₁.db o)
    (hidle : σ₂.switches.Idle) (hflows : db.flows = σ₁.db.flows) :
    σ₂.switches.tables =
      ((es₁ ++ es₂).filterMap Async.Event.op).foldl (effect app σ₁.db) defaultNetwork := by
  have hsettled₁ := congrArg Operations.State.tables (Settling.settled_of_run hrun₁)
  have hstart : (start db).settled = ⟨db, defaultNetwork⟩ := rfl
  rw [hstart, foldl_preparing hpreparing hflows] at hsettled₁
  have hsettled₂ := Settling.settled_of_run hrun₂
  have hσ₁ : σ₁.settled = ⟨σ₁.db, σ₁.settled.tables⟩ := rfl
  rw [hσ₁, foldl_step hregular, hsettled₁, ← List.foldl_append,
    ← List.filterMap_append] at hsettled₂
  rw [← hidle.drained]
  exact congrArg Operations.State.tables hsettled₂

end Run

section Demo

open Detection Optimum

def freshDb : Db where
  flows := Demo.db.flows
  flows_id := Demo.db.flows_id
  service := Demo.db.service
  vnf := []

def forward2Packet : Packet := forwardPacket 1 "00:00:00:00:00:02"

theorem forward2_announced : Announced topologyHost testSent 2 1 forward2Packet := by
  have hreq : Requested testGlobals [2, 3] 0 1 "forward2".toList "2".toList :=
    ⟨⟨rfl, rfl⟩, by decide, by decide⟩
  exact announced_of_requested hreq (by decide) (by decide)

def topologySwitch (n : ℕ) : Datapath := ⟨n + 1, 0⟩

def testIds (k : ℕ) : Int := k + 1

theorem topology_wired : Wired Demo.app topologyHost topologySwitch 5 1 where
  connected := by decide
  dpid := by decide
  port := by decide
  switches := by decide
  macs := by decide

theorem request_placed : placedChain topologyHost topologySwitch testPlacement testIds 0 =
    demoChain := by
  have hmacs : (topologyHost 0).mac = "00:00:00:00:00:01" ∧
      (topologyHost 1).mac = "00:00:00:00:00:02" := by decide
  show [(⟨1, (topologyHost 0).mac, ⟨1, 0⟩, 1⟩ : Site), ⟨2, (topologyHost 1).mac, ⟨2, 0⟩, 1⟩] = _
  rw [hmacs.1, hmacs.2, demoChain]

theorem request_offered :
    Offered testGlobals topologyHost topologySwitch testPlacement freshDb testIds 0 6 where
  request := by decide
  length_le := by decide
  id_ne_zero := by decide
  requested := by
    intro k hk
    have hk : k = 0 ∨ k = 1 := by
      have hk : k < 2 := hk
      omega
    rcases hk with rfl | rfl
    · exact ⟨_, _, ⟨⟨rfl, rfl⟩, by decide, by decide⟩, by decide⟩
    · exact ⟨_, _, ⟨⟨rfl, rfl⟩, by decide, by decide⟩, by decide⟩
  rows := by
    rw [request_placed]
    decide

theorem flow1_reports : Reports Demo.app freshDb topologyHost testPlacement 0 1 Demo.packetIn
    (deriveTypes Demo.flow1) Demo.flow1Match 6 where
  ofFlow := Demo.packetIn_ofFlow
  matched := ⟨⟨rfl, Demo.flow1_common⟩, rfl⟩
  ethType := rfl
  service := rfl
  size_pos := by decide
  elsewhere := by decide

def registrations : List Async.Event := registering 1 forward1Packet ++ registering 2 forward2Packet

theorem registered_run : ∃ σ, Run (Step Demo.app demoLinks) (start freshDb) registrations σ ∧
    Unused σ := by
  have hunused : Unused (start freshDb) := ⟨rfl, rfl, rfl⟩
  have hreg1 : isRegistration (reportOf 1 forward1Packet) := by decide
  have hreg2 : isRegistration (reportOf 2 forward2Packet) := by decide
  obtain ⟨σ, hrun, hσ⟩ := register_run hunused rfl hreg1 rfl
  obtain ⟨τ, hrun', hτ⟩ := register_run hσ rfl hreg2 rfl
  exact ⟨τ, hrun.trans hrun', hτ⟩

theorem registrations_setting : Setting testGlobals topologyHost (values testPlacement)
    (program 5 [2, 3]).variables testPlacement freshDb registrations where
  solution := indicates_values testPlacement
  listed _ := Iff.rfl
  readable := testGlobals_readable
  spared := demo_spared _ (by simp [freshDb, Demo.db])
  permitted := by
    intro e he
    rcases List.mem_append.mp he with he | he
    · exact permitted_registering forward1_announced e he
    · exact permitted_registering forward2_announced e he

theorem registrations_handled {msg : PacketIn} {fuel : ℕ} (h : .handle msg fuel ∈ registrations) :
    isRegistration msg := by
  have hmsg : msg = reportOf 1 forward1Packet ∨ msg = reportOf 2 forward2Packet := by
    simp only [registrations, registering, List.mem_append, List.mem_cons, List.not_mem_nil,
      or_false, reduceCtorEq, false_or, Async.Event.handle.injEq] at h
    exact h.imp And.left And.left
  rcases hmsg with rfl | rfl
  · decide
  · decide

theorem request_registered : ∀ k < size [2, 3] 0, Registered registrations (testIds k) := by
  intro k hk
  have hk : k = 0 ∨ k = 1 := by
    have hk : k < 2 := hk
    omega
  rcases hk with rfl | rfl
  · refine ⟨reportOf 1 forward1Packet, 0, ?_, by decide, _, rfl, rfl⟩
    simp [registrations, registering]
  · refine ⟨reportOf 2 forward2Packet, 0, ?_, by decide, _, rfl, rfl⟩
    simp [registrations, registering]

def reporting : List Async.Event :=
  [.addFlow 1, .process 4, .enter 4 1 Demo.packet, .forward 4 1 (.plain Demo.packet),
    .handle Demo.packetIn 2]

theorem reporting_run {σ : State} (hσ : Unused σ) (hflows : σ.db.flows = Demo.db.flows) :
    ∃ σ', Run (Step Demo.app demoLinks) σ reporting σ' := by
  obtain ⟨db, switches, pending, flight, handed⟩ := σ
  obtain ⟨rfl, rfl, rfl⟩ := hσ
  let ready : State := (State.post ⟨db, ⟨defaultNetwork, fun _ ↦ []⟩, [], [], handed⟩
    (apiAddFlow Demo.app db 1).sent).process 4
  have hswitches : ready.switches = demoReady.switches := by
    have hsent : (apiAddFlow Demo.app db 1).sent = (apiAddFlow Demo.app Demo.db 1).sent :=
      (Preparing.addFlow 1).sent_congr hflows
    show (Channels.post _ (mods (apiAddFlow Demo.app db 1).sent)).process 4 = _
    rw [hsent]
    rfl
  let entered : State := { ready with flight := [(4, 1, .plain Demo.packet)] }
  have hflight : entered.flight = [] ++ (4, 1, .plain Demo.packet) :: [] := rfl
  have hpass : Passes (ready.switches.tables 4) 1 0 0 (.plain Demo.packet)
      [.controller 2 (writeMetadata 0 1 0xffffffff) (.plain Demo.packet)] := by
    rw [hswitches]
    exact demo_detects rfl
  have hforward : Step Demo.app demoLinks entered (.forward 4 1 (.plain Demo.packet)) _ :=
    .forward hflight hpass [] (by simp) [] (by simp)
  have hpending : entered.pending ++ [Demo.packetIn] = [] ++ Demo.packetIn :: [] := rfl
  exact ⟨_, .cons (.addFlow _ 1) (.cons (.process _ 4) (.cons (.enter _ rfl Demo.packet)
    (.cons hforward (.one (.handle hpending 2)))))⟩

end Demo

end NshSfc.Hosting
