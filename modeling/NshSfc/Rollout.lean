import NshSfc.Announcements
import NshSfc.Bypass
import NshSfc.Deployment
import NshSfc.Listening

namespace NshSfc.Rollout

open Library Python Database OpenFlow App Packets Controller Switch Async Allocation Indexing Program
  Decoding Agent Registrations Announcements Deployment

/-- The host of a node: the switch and the port that it is attached to, and its MAC address. -/
structure Host where
  mac : String
  dpid : Int
  port : Int

def Host.place (h : Host) : Place := ⟨h.mac, some h.dpid, some h.port⟩

/-- A text in a column of type INTEGER. SQLite makes a number of a decimal numeral with 64 bits; other
texts, which it would keep, are left out. -/
def integerColumn (s : Text) : Option Int :=
  if s ≠ [] ∧ s.all Char.isDigit ∧ Nat.ofDigitChars 10 s 0 < 2 ^ 63 then
    some (Nat.ofDigitChars 10 s 0 : Int)
  else none

def stored (m : RegisterDict) : Option Registration := do
  let vnfId ← integerColumn m.vnfId
  let typeId ← integerColumn m.typeId
  let groupId ← integerColumn m.groupId
  let iftype ← integerColumn m.iftype
  return ⟨vnfId, String.ofList m.name, typeId, groupId, String.ofList m.geoLocation, iftype,
    String.ofList m.bidirectional⟩

/-- The packet comes from the host of a node, whose agent has made it of what it has received. A packet
that has not come through whole may have no JSON object. -/
def Announced (hosts : ℕ → Host) (sent : List (Text × ByteArray)) (s p : Int) (pkt : Packet) : Prop :=
  ∃ n datagrams m, Reach sent n datagrams ∧ m ∈ (recv datagrams).sent ∧ s = (hosts n).dpid ∧
    p = (hosts n).port ∧ pkt.ethSrc = (hosts n).mac ∧
    ∀ info, pkt.registration = some info → stored m = some info

section Places

variable {nodes : ℕ} {Kr : List ℕ} (g : Globals) (hosts : ℕ → Host)
  (P : Placement nodes Kr.length (size Kr))

def Allotted (v : Int) (p : Place) : Prop :=
  ∃ r k name vnfId, Requested g Kr r k name vnfId ∧ integerColumn vnfId = some v ∧
    p = (hosts (P.bin r k)).place

structure ForVnf (s p : Int) (pkt : Packet) (info : Registration) (r k : ℕ) (name vnfId : Text) : Prop
    where
  requested : Requested g Kr r k name vnfId
  place : (⟨pkt.ethSrc, some s, some p⟩ : Place) = (hosts (P.bin r k)).place
  id : info.vnfId = integerColumn vnfId
  name : info.name = some (String.ofList name)
  iftype : info.iftype = integerColumn g.iftype

end Places

section Stored

variable {m : RegisterDict} {info : Registration}

theorem stored_eq_some (h : stored m = some info) : info.vnfId = integerColumn m.vnfId ∧
    info.name = some (String.ofList m.name) ∧ info.iftype = integerColumn m.iftype := by
  obtain ⟨vnfId, hid, h⟩ := Option.bind_eq_some_iff.mp h
  obtain ⟨typeId, -, h⟩ := Option.bind_eq_some_iff.mp h
  obtain ⟨groupId, -, h⟩ := Option.bind_eq_some_iff.mp h
  obtain ⟨iftype, hiftype, h⟩ := Option.bind_eq_some_iff.mp h
  obtain rfl := Option.some.inj h
  exact ⟨hid.symm, rfl, hiftype.symm⟩

end Stored

section Run

variable {g : Globals} {hosts : ℕ → Host} {nodes : ℕ} {Kr : List ℕ} {v : LpVariable → Int}
  {vars : List LpVariable} {P : Placement nodes Kr.length (size Kr)} {app : SfcApp} {links : Links}
  {db : Db} {σ : State} {es : List Event} {id : Int} {p : Place}

theorem forVnf_of_announced (hv : Indicates v P)
    (hvars : ∀ x, x ∈ vars ↔ x ∈ (program nodes Kr).variables) (hclean : Readable g Kr) {s q : Int}
    {pkt : Packet} (h : Announced hosts (deploy g nodes Kr v vars).sent s q pkt) {info : Registration}
    (hinfo : pkt.registration = some info) :
    ∃ r k name vnfId, ForVnf g hosts P s q pkt info r k name vnfId := by
  obtain ⟨n, datagrams, m, hreach, hm, rfl, rfl, hmac, hsame⟩ := h
  obtain ⟨datagram, -, r, k, hreq, rfl, -, -, -, -, hiftype, -⟩ :=
    announces_of_sent hv hvars hclean hreach hm
  obtain ⟨hid, hname, htype⟩ := stored_eq_some (hsame info hinfo)
  exact ⟨r, k, m.name, m.vnfId, hreq, by rw [hmac, Host.place], hid, hname, by rw [htype, hiftype]⟩

/-- What holds of the setting: the script sends what a solution of the program says, the agents can
read it, and only agents register VNFs. -/
structure Setting (g : Globals) (hosts : ℕ → Host) (v : LpVariable → Int) (vars : List LpVariable)
    (P : Placement nodes Kr.length (size Kr)) (db : Db) (es : List Event) : Prop where
  solution : Indicates v P
  listed : ∀ x, x ∈ vars ↔ x ∈ (program nodes Kr).variables
  readable : Readable g Kr
  spared : Spared db.flows
  permitted : ∀ e ∈ es, Permitted (Announced hosts (deploy g nodes Kr v vars).sent) e

theorem Setting.forVnf (h : Setting g hosts v vars P db es)
    (hrun : Run (Step app links) (start db) es σ) {msg : PacketIn} {fuel : ℕ}
    (hmem : .handle msg fuel ∈ es) (hreg : isRegistration msg) {info : Registration}
    (hinfo : msg.packet.registration = some info) :
    (∃ r k name vnfId, ForVnf g hosts P msg.datapath.id msg.inPort msg.packet info r k name vnfId) ∧
      msg.metadata = none := by
  obtain ⟨hannounced, hnone⟩ := handled_allowed h.spared hrun h.permitted hmem hreg
  exact ⟨forVnf_of_announced h.solution h.listed h.readable hannounced hinfo, hnone⟩

theorem Setting.allotted (h : Setting g hosts v vars P db es)
    (hrun : Run (Step app links) (start db) es σ)
    (hdb : ∀ id p, Located db id p → Allotted g hosts P id p) (hp : Located σ.db id p) :
    Allotted g hosts P id p := by
  rw [db_of_run hrun, located_iff] at hp
  cases hp with
  | stored hp => exact hdb id p hp
  | @registered before after r hregs hnew hr htaken =>
    obtain ⟨hreg, ⟨info, hinfo, hid, -⟩, rfl⟩ := hr
    have hmem : r ∈ handlings app es := by
      rw [hregs]
      exact List.mem_append_right _ List.mem_cons_self
    obtain ⟨⟨r', k, name, vnfId, hvnf⟩, -⟩ := h.forVnf hrun (mem_handlings.mp hmem).2 hreg hinfo
    exact ⟨r', k, name, vnfId, hvnf.requested, hvnf.id.symm.trans hid, hvnf.place⟩

/-- No two VNFs have the same id, or the same name. -/
structure Distinct (g : Globals) (Kr : List ℕ) : Prop where
  id : ∀ {r k r' k' name vnfId name' vnfId'}, Requested g Kr r k name vnfId →
    Requested g Kr r' k' name' vnfId' → integerColumn vnfId = integerColumn vnfId' → r = r' ∧ k = k'
  name : ∀ {r k r' k' name vnfId name' vnfId'}, Requested g Kr r k name vnfId →
    Requested g Kr r' k' name' vnfId' → name = name' → r = r' ∧ k = k'

theorem Requested.vnfId_eq {r k : ℕ} {name vnfId name' vnfId' : Text}
    (h : Requested g Kr r k name vnfId) (h' : Requested g Kr r k name' vnfId') : vnfId = vnfId' :=
  Except.ok.inj (h.vnfId.symm.trans h'.vnfId)

theorem located_of_ne_nil {db : Db} (hrows : ∀ row ∈ db.vnf, row.locatorAddr.isSome)
    (h : db.selectLocator id ≠ []) : ∃ p, Located db id p := by
  obtain ⟨⟨loc, dpid, port⟩, rest, hsel⟩ := List.exists_cons_of_ne_nil h
  have hmem : (loc, dpid, port) ∈ db.selectLocator id := hsel ▸ List.mem_cons_self
  obtain ⟨row, hrow, heq⟩ := List.mem_map.mp hmem
  obtain ⟨loc', hloc⟩ := Option.isSome_iff_exists.mp (hrows row (List.mem_filter.mp hrow).1)
  cases heq
  refine ⟨⟨loc', row.dpid, row.inPort⟩, ?_⟩
  rw [Located, hsel, hloc]
  rfl

/-- The names and ids keep registrations of different VNFs from colliding. -/
theorem ForVnf.id_eq (hdistinct : Distinct g Kr) {s p s' p' id' : Int} {pkt pkt' : Packet}
    {info info' : Registration} {r k r' k' : ℕ} {name vnfId name' vnfId' : Text}
    (h : ForVnf g hosts P s p pkt info r k name vnfId)
    (h' : ForVnf g hosts P s' p' pkt' info' r' k' name' vnfId') (hid : info.vnfId = some id)
    (hid' : info'.vnfId = some id') (hcollides : id' = id ∨ info'.name = info.name) : id' = id := by
  rcases hcollides with hsame | hname
  · exact hsame
  rw [h.name, h'.name] at hname
  have hname := String.ofList_injective (Option.some.inj hname)
  obtain ⟨rfl, rfl⟩ := hdistinct.name h'.requested h.requested hname
  have hids := Requested.vnfId_eq h'.requested h.requested
  have hcolumns : info'.vnfId = info.vnfId := by rw [h'.id, h.id, hids]
  rw [hid', hid] at hcolumns
  exact Option.some.inj hcolumns

theorem Setting.taken (h : Setting g hosts v vars P db es)
    (hrun : Run (Step app links) (start db) es σ) (hempty : db.vnf = []) (hdistinct : Distinct g Kr)
    {before after : List Handling} {r : Handling} (hregs : handlings app es = before ++ r :: after)
    (hnew : (handled db before).selectLocator id = []) (hr : Registers r.msg id p) :
    handled db (before ++ [r]) ≠ handled db before := by
  obtain ⟨hreg, ⟨info, hinfo, hid, hthree⟩, -⟩ := hr
  have hmem : ∀ r' ∈ before ++ [r], r'.app = app ∧ .handle r'.msg r'.fuel ∈ es := by
    intro r' hr'
    refine mem_handlings.mp ?_
    rw [hregs, ← List.singleton_append, ← List.append_assoc]
    exact List.mem_append_left _ hr'
  obtain ⟨⟨r₁, k₁, name₁, vnfId₁, hvnf⟩, hnone⟩ :=
    h.forVnf hrun (hmem r (by simp)).2 hreg hinfo
  have hinsert : handled db (before ++ [r]) =
      (handled db before).insertVnf (vnfRow r.msg info id) := by
    rw [handled_concat, packetInHandler, register, if_pos hreg, hinfo]
    simp only [hid, Script.pure_bind, activate, hnone]
    rfl
  have hapart : ¬ (handled db before).vnf.any
      ((handled db before).key.collides (vnfRow r.msg info id)) := by
    intro hany
    obtain ⟨row, hrow, hcollides⟩ := List.any_eq_true.mp hany
    obtain ⟨r', hr', info', id', hreg', hinfo', hid', rfl⟩ :=
      (rows_of_handled hrow).resolve_left (by simp [hempty])
    obtain ⟨⟨r₂, k₂, name₂, vnfId₂, hvnf'⟩, -⟩ :=
      h.forVnf hrun (hmem r' (List.mem_append_left _ hr')).2 hreg' hinfo'
    have hthree' : info'.iftype = some 3 := by rw [hvnf'.iftype, ← hvnf.iftype, hthree]
    have hsame : id' = id :=
      ForVnf.id_eq hdistinct hvnf hvnf' hid hid' (UniqueKey.eq_of_collides hcollides)
    have hfound : (vnfRow r'.msg info' id') ∈ (handled db before).vnf.filter
        fun row ↦ row.id = id ∧ row.iftype = some 3 := by
      refine List.mem_filter.mpr ⟨hrow, ?_⟩
      simp [vnfRow, hsame, hthree']
    rw [List.map_eq_nil_iff.mp hnew] at hfound
    cases hfound
  intro hsame
  have hfound : ((handled db before).insertVnf (vnfRow r.msg info id)).selectLocator id =
      (handled db before).selectLocator id := by rw [← hinsert, hsame]
  rw [Db.selectLocator_insertVnf, hnew, if_pos ⟨hapart, rfl, hthree⟩] at hfound
  cases hfound

theorem allotted_unique (hdistinct : Distinct g Kr) {r k : ℕ} {name vnfId : Text}
    (hreq : Requested g Kr r k name vnfId) (hid : integerColumn vnfId = some id)
    (h : Allotted g hosts P id p) : p = (hosts (P.bin r k)).place := by
  obtain ⟨r', k', name', vnfId', hreq', hid', rfl⟩ := h
  obtain ⟨rfl, rfl⟩ := hdistinct.id hreq' hreq (hid'.trans hid.symm)
  rfl

theorem not_located_of_empty {db : Db} (hempty : db.vnf = []) : ¬ Located db id p := by
  intro hp
  simp [Located, Db.selectLocator, hempty] at hp

theorem Setting.allotted_of_empty (h : Setting g hosts v vars P db es)
    (hrun : Run (Step app links) (start db) es σ) (hempty : db.vnf = []) (hp : Located σ.db id p) :
    Allotted g hosts P id p :=
  h.allotted hrun (fun _ _ hp ↦ absurd hp (not_located_of_empty hempty)) hp

theorem Setting.located (h : Setting g hosts v vars P db es)
    (hrun : Run (Step app links) (start db) es σ) (hempty : db.vnf = []) (hdistinct : Distinct g Kr)
    (hthree : integerColumn g.iftype = some 3) {r k : ℕ} {name vnfId : Text}
    (hreq : Requested g Kr r k name vnfId) (hid : integerColumn vnfId = some id) {msg : PacketIn}
    {fuel : ℕ} (hmem : .handle msg fuel ∈ es) (hreg : isRegistration msg) {info : Registration}
    (hinfo : msg.packet.registration = some info) (hvnf : info.vnfId = some id) :
    Located σ.db id (hosts (P.bin r k)).place := by
  have hat : ∀ {id p}, Located σ.db id p → Allotted g hosts P id p :=
    h.allotted_of_empty hrun hempty
  have hdb : σ.db = handled db (handlings app es) := db_of_run hrun
  obtain ⟨⟨r', k', name', vnfId', hfor⟩, -⟩ := h.forVnf hrun hmem hreg hinfo
  obtain ⟨rfl, rfl⟩ := hdistinct.id hreq hfor.requested (by rw [hid, ← hfor.id, hvnf])
  have hregisters : Registers msg id (hosts (P.bin r k)).place :=
    ⟨hreg, ⟨info, hinfo, hvnf, hfor.iftype.trans hthree⟩, hfor.place.symm⟩
  have hregs : (⟨app, msg, fuel⟩ : Handling) ∈ handlings app es := mem_handlings.mpr ⟨rfl, hmem⟩
  obtain ⟨before, after, hregs⟩ := List.append_of_mem hregs
  rw [hdb]
  by_cases hnew : (handled db before).selectLocator id = []
  · have htaken := h.taken hrun hempty hdistinct hregs hnew hregisters
    exact located_iff.mpr (.registered hregs hnew hregisters htaken)
  · -- it has been registered before, and what is found first stays
    have hrows : ∀ row ∈ (handled db before).vnf, row.locatorAddr.isSome := by
      intro row hrow
      obtain ⟨r', -, info', id', -, -, -, rfl⟩ := (rows_of_handled hrow).resolve_left (by simp [hempty])
      rfl
    obtain ⟨p, hp⟩ := located_of_ne_nil hrows hnew
    have hlast := located_append hp (⟨app, msg, fuel⟩ :: after)
    rw [← hregs, ← hdb] at hlast
    rw [← hdb]
    rwa [allotted_unique hdistinct hreq hid (hat hlast)] at hlast

end Run

section Demo

open OpenFlow Detection Bypass Optimum

def topologyHost (n : ℕ) : Host := ⟨"00:00:00:00:00:0" ++ numeral n, n + 1, 1⟩

theorem db_allotted (id : Int) (p : Place) (h : Located Demo.db id p) :
    Allotted testGlobals topologyHost testPlacement id p := by
  obtain ⟨row, hfound, heq⟩ := List.mem_map.mp (List.mem_of_head? h)
  obtain ⟨hrow, hid⟩ := List.mem_filter.mp hfound
  obtain ⟨rfl, -⟩ := of_decide_eq_true hid
  obtain ⟨hloc, hdpid, hport⟩ : row.locatorAddr = some p.loc ∧ row.dpid = p.dpid ∧
      row.inPort = p.inPort := by simpa using heq
  have hp : p = ⟨row.locatorAddr.getD "", row.dpid, row.inPort⟩ := by rw [hloc, hdpid, hport]; rfl
  subst hp
  clear hfound h
  simp only [Demo.db, List.mem_cons, List.not_mem_nil, or_false] at hrow
  rcases hrow with rfl | rfl | rfl | rfl | rfl
  · exact ⟨0, 0, _, _, ⟨⟨rfl, rfl⟩, by decide, by decide⟩, by decide, by decide⟩
  · exact ⟨1, 2, _, _, ⟨⟨rfl, rfl⟩, by decide, by decide⟩, by decide, by decide⟩
  · exact ⟨1, 1, _, _, ⟨⟨rfl, rfl⟩, by decide, by decide⟩, by decide, by decide⟩
  · exact ⟨0, 1, _, _, ⟨⟨rfl, rfl⟩, by decide, by decide⟩, by decide, by decide⟩
  · exact ⟨1, 0, _, _, ⟨⟨rfl, rfl⟩, by decide, by decide⟩, by decide, by decide⟩

theorem demo_spared (flows : List FlowRow) (h : ∀ r ∈ flows, r = Demo.flow1 ∨ r = Demo.flow2) :
    Spared flows := by
  intro r hr m hm hle
  have hsrc : ∃ v, OFPMatch.fields m .ipv4Src = some v := by
    rcases h r hr with rfl | rfl
    · obtain rfl := Except.ok.inj (Demo.flow1_common.symm.trans hm)
      exact ⟨_, rfl⟩
    · obtain rfl := Except.ok.inj (Demo.flow2_common.symm.trans hm)
      exact ⟨_, rfl⟩
  obtain ⟨v, hv⟩ := hsrc
  cases hle _ _ hv

theorem demo_registering : ¬ Registering Demo.packet := fun h ↦ absurd (h .ethDst _ rfl) (by decide)

def testSent : List (Text × ByteArray) :=
  (deploy testGlobals 5 [2, 3] (values testPlacement) (program 5 [2, 3]).variables).sent

theorem announced_of_requested {r k : ℕ} {name vnfId : Text} {pkt : Packet}
    (hreq : Requested testGlobals [2, 3] r k name vnfId)
    (hmac : pkt.ethSrc = (topologyHost (testPlacement.bin r k)).mac)
    (hinfo : pkt.registration = stored ⟨vnfId, name, testGlobals.typeId, testGlobals.groupId,
      ogeoLocation, testGlobals.iftype, "True".toList⟩) :
    Announced topologyHost testSent (testPlacement.bin r k + 1 : ℕ) 1 pkt := by
  have hb : obidirectional testGlobals.iftype = .ok "True".toList := by decide
  have hheard : Heard (testGlobals.datagram name vnfId) _ :=
    Transit.heard_of_clean (testGlobals_readable r k name vnfId hreq) hb
  have hsent := (deploy_complete (indicates_values testPlacement) (fun x ↦ Iff.rfl)
    testGlobals_complete testGlobals_readable).2 r k name vnfId hreq
  refine ⟨testPlacement.bin r k, [testGlobals.datagram name vnfId], _,
    List.forall_mem_singleton.mpr hsent, ?_, rfl, rfl, hmac, fun info hi ↦ hinfo.symm.trans hi⟩
  rw [recv_of_heard hheard]
  exact List.mem_cons_self

def forwardPacket (n : ℕ) (mac : String) : Packet :=
  { (demoRegistration 1 mac).packet with
    registration := some ⟨some (Int.ofNat (n + 1)), some ("forward" ++ numeral n), some 1, some 1,
      some "server1.rack2.row3.room4", some 3, some "True"⟩
    ipv4_header := (demoRegistration 1 mac).packet.ipv4_header }

def forward1Packet : Packet := forwardPacket 0 "00:00:00:00:00:01"

theorem forward1_announced : Announced topologyHost testSent 1 1 forward1Packet := by
  have hreq : Requested testGlobals [2, 3] 0 0 "forward1".toList "1".toList :=
    ⟨⟨rfl, rfl⟩, by decide, by decide⟩
  exact announced_of_requested hreq (by decide) (by decide)

def reportOf (s : Int) (pkt : Packet) : PacketIn := ⟨⟨s, 0⟩, 1, 2, none, pkt⟩

structure Unused (σ : State) : Prop where
  switches : σ.switches = ⟨defaultNetwork, fun _ ↦ []⟩
  flight : σ.flight = []
  pending : σ.pending = []

def registering (s : Int) (pkt : Packet) : List Event :=
  [.enter s 1 pkt, .forward s 1 (.plain pkt), .handle (reportOf s pkt) 0]

theorem register_run {σ : State} (hσ : Unused σ) {s : Int} {pkt : Packet}
    (hlink : demoLinks s 1 = none) (hreg : isRegistration (reportOf s pkt))
    (hreport : packetIns Demo.app s 1 [.controller 2 0 (.plain pkt)] = [reportOf s pkt]) :
    ∃ σ', Run (Step Demo.app demoLinks) σ (registering s pkt) σ' ∧ Unused σ' := by
  obtain ⟨db, switches, pending, flight, handed⟩ := σ
  obtain ⟨rfl, rfl, rfl⟩ := hσ
  let entered : State := ⟨db, ⟨defaultNetwork, fun _ ↦ []⟩, [], [(s, 1, .plain pkt)], handed⟩
  have hflight : entered.flight = [] ++ (s, 1, .plain pkt) :: [] := rfl
  have hpass : Pipeline.Passes (entered.switches.tables s) 1 0 0 (.plain pkt)
      [.controller 2 0 (.plain pkt)] :=
    (registering_passes (Outcomes.sound_of_base (Provenance.Base.start Demo.app db) s)
      (defaultTable_iff.mpr .registration) (registering_of_isRegistration hreg)).mpr rfl
  have hforward : Step Demo.app demoLinks entered (.forward s 1 (.plain pkt)) _ :=
    .forward hflight hpass [] (by simp) [] (by simp)
  rw [hreport] at hforward
  have hpending : entered.pending ++ [reportOf s pkt] = [] ++ reportOf s pkt :: [] := rfl
  have hsent : (packetInHandler 0 Demo.app db (reportOf s pkt)).sent = [] := by
    refine List.eq_nil_iff_forall_not_mem.mpr fun n hn ↦ ?_
    obtain ⟨flowId, row, m, hid, -⟩ := Handler.handler_sends hn
    cases hid
  refine ⟨_, .cons (.enter _ hlink pkt) (.cons hforward (.one (.handle hpending 0))), ?_, rfl, rfl⟩
  show Channels.post _ (mods (packetInHandler 0 Demo.app db (reportOf s pkt)).sent) = _
  rw [hsent]
  exact Channels.post_nil _

theorem testGlobals_numbers {r k : ℕ} {name vnfId : Text}
    (h : Requested testGlobals [2, 3] r k name vnfId) : (r = 0 ∧ k < 2 ∨ r = 1 ∧ k < 3) ∧
      integerColumn vnfId = some ((2 * r + k + 1 : ℕ) : Int) ∧ name = "forward".toList ++ vnfId := by
  obtain ⟨⟨hname, hid⟩, hr, hk⟩ := h
  have hmem := testCells r hr k hk
  simp only [List.mem_cons, List.not_mem_nil, or_false, Prod.mk.injEq] at hmem
  rcases hmem with ⟨rfl, rfl⟩ | ⟨rfl, rfl⟩ | ⟨rfl, rfl⟩ | ⟨rfl, rfl⟩ | ⟨rfl, rfl⟩
  all_goals
    cases hname
    cases hid
    decide

theorem testGlobals_distinct : Distinct testGlobals [2, 3] where
  id h h' heq := by
    obtain ⟨hcell, hid, -⟩ := testGlobals_numbers h
    obtain ⟨hcell', hid', -⟩ := testGlobals_numbers h'
    rw [hid, hid', Option.some.injEq, Nat.cast_inj] at heq
    omega
  name h h' heq := by
    obtain ⟨hcell, hid, hname⟩ := testGlobals_numbers h
    obtain ⟨hcell', hid', hname'⟩ := testGlobals_numbers h'
    rw [hname, hname', List.append_cancel_left_eq] at heq
    rw [heq, hid', Option.some.injEq, Nat.cast_inj] at hid
    omega

theorem permitted_registering {s : Int} {pkt : Packet}
    (h : Announced topologyHost testSent s 1 pkt) :
    ∀ e ∈ registering s pkt, Permitted (Announced topologyHost testSent) e := by
  intro e he
  cases e with
  | enter s' p pkt' =>
    obtain ⟨rfl, rfl, rfl⟩ : s' = s ∧ p = 1 ∧ pkt' = pkt := by simpa [registering] using he
    exact fun _ ↦ h
  | addFlow | deleteFlow | handle | process | forward => trivial

end Demo

end NshSfc.Rollout
