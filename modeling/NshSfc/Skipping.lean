import NshSfc.Demo
import NshSfc.Served
import Mathlib.Data.List.TakeWhile

namespace NshSfc.Skipping

open Library Library.Script Python Database OpenFlow RowMatch App Packets Controller Sent Handler
  Fuel Linked Served
open Sites (Site deliveryPort)

def AttachedAt (r : VnfRow) (v : Site) : Prop :=
  r.locatorAddr = some v.loc ∧ r.dpid = some v.dp.id ∧ r.inPort = some v.port

/-- The node agent derives `bidirectional` from `iftype`. -/
def Consistent (r : VnfRow) : Prop :=
  (r.iftype = some 1 ∨ r.iftype = some 2) ∧ r.bidirectional = some "False" ∨
    r.iftype = some 3 ∧ r.bidirectional = some "True"

/-- The VNF has been registered. It is attached where one of its registrations says, the one with
`iftype` 3 if there is one. -/
structure Registered (db : Db) (v : Site) : Prop where
  exists_row : ∃ r ∈ db.vnf, r.id = v.id ∧ AttachedAt r v
  consistent : ∀ r ∈ db.vnf, r.id = v.id → Consistent r
  attached : ∀ r ∈ db.vnf, r.id = v.id → r.iftype = some 3 → AttachedAt r v

/-- The `iftype` of the row that a select on the id of the VNF returns first. -/
def iftype (db : Db) (v : Site) : Option Int := (db.vnf.find? (·.id = v.id)).bind (·.iftype)

def Delivered (spi : Int) (v : Site) (sent : List Message) : Prop :=
  ∀ T : Network, ∃ si port, T.receive sent v.dp.id ⟨1, 6, OFPMatch.fields (matchHop v.loc spi si)⟩ =
    some (handOut port)

section Registered

variable {db : Db} {v : Site}

theorem Registered.head (h : Registered db v) : ∃ r, db.vnf.find? (·.id = v.id) = some r ∧
    r ∈ db.vnf ∧ r.id = v.id ∧ (db.selectBidirectional v.id).head? = some r.bidirectional := by
  obtain ⟨r, hr⟩ : ∃ r, db.vnf.find? (·.id = v.id) = some r := by
    obtain ⟨r, hmem, hid, -⟩ := h.exists_row
    exact Option.isSome_iff_exists.mp (List.find?_isSome.mpr ⟨r, hmem, by simpa using hid⟩)
  refine ⟨r, hr, List.mem_of_find?_eq_some hr, by simpa using List.find?_some hr, ?_⟩
  rw [Db.selectBidirectional, List.head?_map, List.head?_filter, hr]
  rfl

theorem Registered.bidirectional_iff (h : Registered db v) :
    bidirectional db v ↔ iftype db v = some 3 := by
  obtain ⟨r, hfind, hmem, hid, hsel⟩ := h.head
  rw [bidirectional, hsel, iftype, hfind]
  rcases h.consistent r hmem hid with ⟨htype, hb⟩ | ⟨htype, hb⟩
  · rcases htype with htype | htype <;> simp [htype, hb]
  · simp [htype, hb]

theorem Registered.known (h : Registered db v) : Known db v where
  registered := by
    obtain ⟨r, -, -, -, hsel⟩ := h.head
    exact ⟨r.bidirectional, hsel⟩
  locator := by
    intro hb
    obtain ⟨r, hfind, hmem, hid, -⟩ := h.head
    have htype : r.iftype = some 3 := by simpa [iftype, hfind] using h.bidirectional_iff.mp hb
    obtain ⟨r', hr'⟩ : ∃ r', db.vnf.find? (fun r ↦ r.id = v.id ∧ r.iftype = some 3) = some r' :=
      Option.isSome_iff_exists.mp (List.find?_isSome.mpr ⟨r, hmem, by simp [hid, htype]⟩)
    have hr : r'.id = v.id ∧ r'.iftype = some 3 := by simpa using List.find?_some hr'
    obtain ⟨hloc, hdpid, hport⟩ := h.attached r' (List.mem_of_find?_eq_some hr') hr.1 hr.2
    rw [Db.selectLocator, List.head?_map, List.head?_filter, hr']
    simp [hloc, hdpid, hport]

end Registered

section Returns

variable {app : SfcApp} {db db' : Db} {msg : PacketIn} {flowId : ℕ} {row : FlowRow} {spi : Int}
  {si : List Site → Int} {fuel : ℕ}

theorem activate_of_ok (hof : OfFlow app flowId msg)
    (hok : (packetInHandler fuel app db msg).result = .ok db') :
    (activate fuel app db msg).result = .ok () ∨
      (activate fuel app db msg).result = .error (.raised .keyError) := by
  rw [handler_of_not_registration hof.notRegistration] at hok
  obtain ⟨⟨⟩, hcatch, -⟩ := bind_result_ok.mp hok
  cases hact : (activate fuel app db msg).result with
  | ok a => exact .inl rfl
  | error e =>
    rw [catching, hact] at hcatch
    cases e with
    | outOfFuel => cases hcatch
    | raised e => cases e <;> first | exact .inr rfl | cases hcatch

theorem matched_of_ok (hof : OfFlow app flowId msg) (hrow : RowOf db flowId row)
    (hok : (packetInHandler fuel app db msg).result = .ok db') : ∃ c, Matched db flowId row c := by
  obtain ⟨r, hr, rfl⟩ : ∃ r, (db.selectFlows flowId).head? = some r ∧ deriveTypes r = row := by
    simpa [RowOf] using hrow
  cases hentry : matchEntryPoint msg.inPort (deriveTypes r) with
  | ok entry =>
    obtain ⟨c, hc⟩ := flowMatch_ok_of_ok hentry (ethFields (deriveTypes r))
    have hc : matchCommon (deriveTypes r) = .ok c := hc
    by_cases hp : c.packs
    · exact ⟨c, ⟨hrow, hc⟩, hp⟩
    · have hact := activate_structError hof hr hentry hc hp fuel
      rcases activate_of_ok hof hok with h | h <;> rw [hact] at h <;> cases h
  | error e =>
    have hact := activate_raised hof hr hentry fuel
    rcases activate_of_ok hof hok with h | h
    · rw [hact] at h
      cases h
    · rw [hact] at h
      obtain rfl : e = .keyError := by simpa using h
      exact absurd hentry flowMatch_error

theorem bidirectional_of_ok {u : Site} {rest : List Site} (h : Listed db spi si (u :: rest))
    (hknown : Known db u) (hof : OfFlow app flowId msg) {c : OFPMatch} (hc : Matched db flowId row c)
    (hspi : row.serviceId = some spi)
    (hok : (packetInHandler fuel app db msg).result = .ok db') : bidirectional db u := by
  by_contra hb
  obtain ⟨b, hsel, hne⟩ := hknown.not_bidirectional hb
  obtain ⟨entry, hentry⟩ := hc.exists_entry msg.inPort
  obtain ⟨r, hr, rfl⟩ := hc.head
  have hinstall : install fuel app db msg flowId (deriveTypes r) entry =
      .raise (.raised .unboundLocalError) := by
    have hfirst : firstVnf db msg (some spi) = .raise (.raised .unboundLocalError) := by
      simp only [firstVnf, fetchone_eq h.first, Script.pure_bind, fetchone_eq hsel, if_neg hne,
        hof.notRegistration, Bool.false_eq_true, if_false]
    simp only [install, hspi, hfirst, raise_bind]
  have hact := activate_eq hof hr hentry hc.common hc.packs fuel
  rw [hinstall] at hact
  rcases activate_of_ok hof hok with h | h <;> rw [hact] at h <;> cases h

end Returns

section Chain

variable {app : SfcApp} {db db' : Db} {msg : PacketIn} {flowId : ℕ} {row : FlowRow} {spi : Int}
  {si : List Site → Int} {vs chain : List Site} {v : Site} {sent : List Message} {r : Ctl Db}

theorem rule_of_added (h : Delivers spi chain sent) {n : Message} (hn : n ∈ sent)
    (hs : n.1.id = v.dp.id) {si' : Int} {i : List Instruction}
    (hadd : n.2.toMod = .add ⟨1, 6, OFPMatch.fields (matchHop v.loc spi si')⟩ i) :
    ∃ w ∈ chain, w.dp.id = v.dp.id ∧ w.loc = v.loc ∧ ∃ port, i = handOut port := by
  obtain ⟨dp, mod⟩ := n
  cases mod with
  | delete t m => cases hadd
  | add t p m j =>
    obtain ⟨hkey, rfl⟩ := Mod.add.inj hadd
    obtain ⟨rfl, rfl, hm⟩ := Key.mk.inj hkey
    have hdst : OFPMatch.fields m .ethDst = some (.str v.loc) := by rw [hm, matchHop_ethDst]
    have haddr : Addresses { v with dp := dp } (dp, .add 1 6 m j) :=
      addresses_add.mpr ⟨rfl, rfl, hdst⟩
    obtain ⟨w, post, si, hsuf, hdp, hloc, hrule⟩ := h.only _ hn _ haddr
    refine ⟨w, hsuf.subset List.mem_cons_self, ?_, hloc, deliveryPort w post, ?_⟩
    · rw [hdp, ← hs]
    · exact (FlowMod.add.inj (Prod.mk.inj hrule).2).2.2.2

theorem delivered_iff_mem (h : Delivers spi chain sent)
    (hdel : ∀ n ∈ sent, ∀ t m, n.2.toMod = .delete t m → t ≠ 1) :
    Delivered spi v sent ↔ ∃ w ∈ chain, w.dp.id = v.dp.id ∧ w.loc = v.loc := by
  constructor
  · intro hdelivered
    obtain ⟨si', port, hentry⟩ := hdelivered fun _ _ ↦ none
    rcases receive_eq_some hentry with ⟨n, hn, hs, hadd⟩ | ⟨hnone, -⟩
    · obtain ⟨w, hw, hdp, hloc, -⟩ := rule_of_added h hn hs hadd
      exact ⟨w, hw, hdp, hloc⟩
    · cases hnone
  · rintro ⟨w, hw, hdp, hloc⟩ T
    obtain ⟨pre, post, rfl⟩ := List.append_of_mem hw
    obtain ⟨si', hn⟩ := h.rule w post (List.suffix_append _ _)
    have hadd : (deliveryRule spi w si' (deliveryPort w post)).2.toMod =
        .add ⟨1, 6, OFPMatch.fields (matchHop v.loc spi si')⟩ (handOut (deliveryPort w post)) := by
      rw [← hloc]
      rfl
    have honly : ∀ n' ∈ sent, n'.1.id = v.dp.id →
        n'.2.toMod.Touches ⟨1, 6, OFPMatch.fields (matchHop v.loc spi si')⟩ →
        ∃ j, n'.2.toMod = .add ⟨1, 6, OFPMatch.fields (matchHop v.loc spi si')⟩ j ∧
          ∃ port, j = handOut port := by
      intro n' hn' hs ht
      cases hmod : n'.2.toMod with
      | delete t m =>
        rw [hmod] at ht
        exact absurd ht.1.symm (hdel n' hn' t m hmod)
      | add k j =>
        rw [hmod] at ht
        obtain rfl : k = _ := ht
        obtain ⟨-, -, -, -, hport⟩ := rule_of_added h hn' hs hmod
        exact ⟨j, rfl, hport⟩
    obtain ⟨j, hj, port, rfl⟩ := receive_of_add hn hdp hadd honly T
    exact ⟨si', port, hj⟩

theorem table_of_delete (hr : Handles app db msg r) {n : Message} (hn : n ∈ r.sent) {t : ℕ}
    {m : FieldMatch} (hdel : n.2.toMod = .delete t m) : t ≠ 1 := by
  obtain ⟨fuel, rfl, -⟩ := hr
  obtain ⟨flowId, row, c, -, -, ⟨dp, -, rfl⟩ | hrule⟩ := handler_sends hn
  · cases hdel
    decide
  · obtain ⟨dp, t', p, m', a, i, g, rfl, -⟩ := InstallRule.exists_add hrule
    cases hdel

theorem served_of_ne_zero {bidir : Site → Bool} {rest : List Site} (h : ∀ v ∈ rest, v.id ≠ 0) :
    served bidir rest = rest.filter bidir := by
  have hall : rest.takeWhile (·.id ≠ 0) = rest :=
    List.takeWhile_eq_self_iff.mpr fun v hv ↦ by simpa using h v hv
  rw [served, hall]

/-- When the handler returns, a VNF has a delivery rule exactly if a VNF of the chain at its locator
is found with `iftype` 3 first. -/
theorem delivered_iff (h : Listed db spi si vs) (hreg : ∀ v ∈ vs, Registered db v)
    (hconn : ∀ v ∈ vs, v.dp ∈ app.datapaths) (hzero : ∀ v ∈ vs.tail, v.id ≠ 0)
    (hof : OfFlow app flowId msg) (hrow : RowOf db flowId row) (hspi : row.serviceId = some spi)
    (hr : Handles app db msg r) (hok : r.result = .ok db') (hv : v ∈ vs) :
    Delivered spi v r.sent ↔ ∃ u ∈ vs, iftype db u = some 3 ∧ u.dp.id = v.dp.id ∧ u.loc = v.loc := by
  cases vs with
  | nil => simp at hv
  | cons u rest =>
    have hknown : ∀ v ∈ u :: rest, Known db v := fun v hv ↦ (hreg v hv).known
    obtain ⟨fuel, rfl, hends⟩ := id hr
    obtain ⟨c, hc⟩ := matched_of_ok hof hrow hok
    have hb := bidirectional_of_ok h (hknown u List.mem_cons_self) hof hc hspi hok
    obtain ⟨r', hr', -, hdel⟩ := handler_delivers h hknown hconn hb hof hc hspi
    have hserved : served (bidirectional db) rest = _ := served_of_ne_zero hzero
    rw [hr'.unique hr, hserved] at hdel
    rw [delivered_iff_mem hdel fun n hn t m ↦ table_of_delete hr hn]
    have hchain : ∀ w, w ∈ u :: rest.filter (bidirectional db) ↔
        w ∈ u :: rest ∧ bidirectional db w := by
      intro w
      rw [← List.filter_cons_of_pos hb, List.mem_filter]
    constructor
    · rintro ⟨w, hw, hdp, hloc⟩
      obtain ⟨hw, hbw⟩ := (hchain w).mp hw
      exact ⟨w, hw, (hreg w hw).bidirectional_iff.mp hbw, hdp, hloc⟩
    · rintro ⟨w, hw, htype, hdp, hloc⟩
      exact ⟨w, (hchain w).mpr ⟨hw, (hreg w hw).bidirectional_iff.mpr htype⟩, hdp, hloc⟩

end Chain

section Demo

def skipDb : Db where
  flows := [Demo.flow1]
  flows_id := Demo.flow1_ids
  service := [⟨6, none, 1, some 6, 3⟩, ⟨6, some 1, 6, some 2, 2⟩, ⟨6, some 6, 2, none, 1⟩]
  vnf :=
    [Demo.forwarder 1 "forward1" 1 "00:00:00:00:00:01",
     { Demo.forwarder 6 "firewall" 3 "00:00:00:00:00:03" with
       iftype := some 2, bidirectional := some "False" },
     Demo.forwarder 2 "forward2" 2 "00:00:00:00:00:02"]

def firewall : Site := ⟨6, "00:00:00:00:00:03", ⟨3, 0⟩, 1⟩

def skipChain : List Site :=
  [⟨1, "00:00:00:00:00:01", ⟨1, 0⟩, 1⟩, firewall, ⟨2, "00:00:00:00:00:02", ⟨2, 0⟩, 1⟩]

theorem skipChain_listed : Listed skipDb 6 (fun l ↦ l.length) skipChain where
  ids := by decide
  rows := .refl _

theorem skipChain_registered : ∀ v ∈ skipChain, Registered skipDb v := by
  intro v hv
  simp only [skipChain, List.mem_cons, List.not_mem_nil, or_false] at hv
  rcases hv with rfl | rfl | rfl <;>
    exact ⟨by simp [skipDb, AttachedAt, firewall, Demo.forwarder],
      by simp [skipDb, Consistent, firewall, Demo.forwarder],
      by simp [skipDb, AttachedAt, firewall, Demo.forwarder]⟩

theorem skipDb_matched : Matched skipDb 1 (deriveTypes Demo.flow1) Demo.flow1Match :=
  ⟨⟨rfl, Demo.flow1_common⟩, rfl⟩

theorem skipChain_handled : ∃ r, Handles Demo.app skipDb Demo.packetIn r ∧ r.result = .ok skipDb ∧
    Delivers 6 [⟨1, "00:00:00:00:00:01", ⟨1, 0⟩, 1⟩, ⟨2, "00:00:00:00:00:02", ⟨2, 0⟩, 1⟩] r.sent :=
  handler_delivers skipChain_listed (fun v hv ↦ (skipChain_registered v hv).known) (by decide)
    (by decide) Demo.packetIn_ofFlow skipDb_matched rfl

theorem delivered_demo : ∃ r, Handles Demo.app skipDb Demo.packetIn r ∧ r.result = .ok skipDb ∧
    Delivered 6 ⟨2, "00:00:00:00:00:02", ⟨2, 0⟩, 1⟩ r.sent := by
  obtain ⟨r, hr, hok, -⟩ := skipChain_handled
  have hmem : (⟨2, "00:00:00:00:00:02", ⟨2, 0⟩, 1⟩ : Site) ∈ skipChain := .tail _ (.tail _ (.head _))
  have hiff := delivered_iff skipChain_listed skipChain_registered (by decide) (by decide)
    Demo.packetIn_ofFlow skipDb_matched.rowOf rfl hr hok hmem
  exact ⟨r, hr, hok, hiff.mpr ⟨_, hmem, by decide, rfl, rfl⟩⟩

/-- All VNFs are registered at connected switches and the handler returns, but no delivery rule
for the firewall has been installed. -/
theorem firewall_skipped : Listed skipDb 6 (fun l ↦ l.length) skipChain ∧
    (∀ v ∈ skipChain, Registered skipDb v ∧ v.dp ∈ Demo.app.datapaths) ∧
    ∃ r, Handles Demo.app skipDb Demo.packetIn r ∧ r.result = .ok skipDb ∧ firewall ∈ skipChain ∧
      ¬ Delivered 6 firewall r.sent := by
  have hconn : ∀ v ∈ skipChain, v.dp ∈ Demo.app.datapaths := by decide
  refine ⟨skipChain_listed, fun v hv ↦ ⟨skipChain_registered v hv, hconn v hv⟩, ?_⟩
  obtain ⟨r, hr, hok, hdel⟩ := skipChain_handled
  refine ⟨r, hr, hok, .tail _ (.head _), ?_⟩
  rw [delivered_iff_mem hdel fun n hn t m ↦ table_of_delete hr hn]
  simp [firewall]

end Demo

end NshSfc.Skipping
