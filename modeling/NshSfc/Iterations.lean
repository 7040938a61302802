import NshSfc.Demo
import NshSfc.Library.Orbits

namespace NshSfc.Iterations

open Library Library.Script Python Database OpenFlow RowMatch App Packets Controller Sent Fuel Handler

variable {app : SfcApp} {db : Db} {row : FlowRow} {flowId : ℕ} {ethSrc : String} {msg : PacketIn}
  {v v' : Int} {w w' : Walk}

def ready (app : SfcApp) (db : Db) (v : Int) : Bool :=
  if (db.selectBidirectional v).head? = some (some "True") then
    match (db.selectLocator v).head? with
    | some (_, dpid, _) => app.connected dpid
    | none => false
  else true

def found (db : Db) (serviceId : Option Int) (v : Int) : Bool :=
  match (db.selectBidirectional v).head? with
  | none => false
  | some b =>
    if b = some "True" then
      match (db.selectLocator v).head?, (db.selectServiceIndex serviceId v).head? with
      | some (some _, _, some _), some _ => true
      | _, _ => false
    else true

/-- The VNF that the tables name after `v`, if nothing there stops the loop. -/
def nextVnf (app : SfcApp) (db : Db) (serviceId : Option Int) (v : Int) : Option Int :=
  if ready app db v then
    (db.selectNextVnfId serviceId v).head?.join.filter fun n ↦ truthy n && found db serviceId n
  else none

theorem nextVnf_eq_some {serviceId : Option Int} : nextVnf app db serviceId v = some v' ↔
    ready app db v ∧ (db.selectNextVnfId serviceId v).head? = some (some v') ∧ v' ≠ 0 ∧
      found db serviceId v' := by
  unfold nextVnf
  split
  case isTrue h => simp [h, Option.filter_eq_some_iff, Option.join_eq_some_iff]
  case isFalse h => simp [h]

theorem nextVnf_mem {serviceId : Option Int} (h : nextVnf app db serviceId v = some v') :
    v ∈ db.selectVnfIds serviceId := by
  obtain ⟨-, hnext, -, -⟩ := nextVnf_eq_some.mp h
  obtain ⟨r, hr, -⟩ := List.mem_map.mp (List.mem_of_head? hnext)
  obtain ⟨hr, hv⟩ := List.mem_filter.mp hr
  exact List.mem_map.mpr ⟨r, hr, by simpa using hv⟩

/-- The variables of the loop when it is at VNF `v`. -/
structure At (app : SfcApp) (db : Db) (row : FlowRow) (v : Int) (w : Walk) : Prop where
  vnfId : w.vnfId = v
  row : w.row = row
  dpid : (∃ dp, (app.datapath w.dpid).result = .ok dp) ↔ ready app db v

theorem found_iff {serviceId : Option Int} : found db serviceId v ↔
    ∃ b, (db.selectBidirectional v).head? = some b ∧ (b = some "True" → ∃ loc dpid port si,
      (db.selectLocator v).head? = some (some loc, dpid, some port) ∧
      (db.selectServiceIndex serviceId v).head? = some si) := by
  unfold found
  cases db.selectBidirectional v with
  | nil => simp
  | cons b bs =>
    by_cases hb : b = some "True"
    swap
    · simp [hb]
    rcases db.selectLocator v with _ | ⟨⟨_ | loc, dpid, _ | port⟩, locs⟩ <;>
      rcases db.selectServiceIndex serviceId v with _ | ⟨si, sis⟩ <;> simp [hb]

structure Serves (db : Db) (flowId : ℕ) (row : FlowRow) : Prop where
  matched : ∃ m, Matched db flowId row m
  service : ∃ spi, row.serviceId = some spi

theorem steer_result (h : Serves db flowId row) (hw : w.row = row) {dp : Datapath} :
    (steer db flowId ethSrc dp w v).result = .ok w' ↔ ∃ loc dpid port si,
      (db.selectLocator v).head? = some (some loc, dpid, some port) ∧
      (db.selectServiceIndex row.serviceId v).head? = some si ∧
      w' = ⟨v, dpid, some port, si, loc, row⟩ := by
  obtain ⟨spi, hspi⟩ := h.service
  obtain ⟨c, hc⟩ := h.matched
  obtain ⟨m, hm⟩ : ∃ m, matchMiddle w.inPort row = .ok m := flowMatch_ok_of_ok hc.common _
  obtain ⟨r, hr, hrow⟩ := hc.head
  have hadd : ∀ {e : OFPMatch}, e.packs → _ := fun he ↦ addFlow_matched hc he dp
  have hmiddle := hadd (matchMiddle_packs hc.common hm hc.packs)
  subst hw
  have hspi' : r.serviceId = some spi := by rw [← deriveTypes_serviceId, hrow, hspi]
  have hid : r.id = w.row.id := by rw [← hrow, deriveTypes_id]
  unfold steer
  rcases hl : db.selectLocator v with _ | ⟨⟨_ | loc, dpid, port⟩, locs⟩
  · simp [fetchone_nil]
  · cases hsi : db.selectServiceIndex w.row.serviceId v <;>
      simp [fetchone_nil, fetchone_cons, hspi, intOfColumn, textOfColumn]
  · cases hsi : db.selectServiceIndex w.row.serviceId v with
    | nil => simp [fetchone_nil, fetchone_cons]
    | cons si sis =>
      cases port <;> simp [fetchone_cons, fetchone_eq hr, hspi, hspi', hid, hrow, hm, intOfColumn,
        textOfColumn, hmiddle, hadd (e := matchSpiSi _ _) rfl, hadd (e := matchHop _ _ _) rfl, eq_comm]

theorem hop_ends : Ends (hop app db flowId ethSrc w) := by
  unfold hop
  refine .bind (ends_datapath _) fun dp _ ↦ ?_
  refine .bind (ends_fetchone _) fun next _ ↦ ?_
  split
  · refine .bind (ends_fetchone _) fun b _ ↦ ?_
    split
    · refine .bind ?_ fun _ _ ↦ ends_pure _
      unfold steer
      refine .bind (ends_fetchone _) fun ⟨_, _, _⟩ _ ↦ ?_
      refine .bind (ends_fetchone _) fun _ _ ↦ ?_
      refine .bind (ends_py _) fun _ _ ↦ ?_
      refine .bind (ends_py _) fun _ _ ↦ ?_
      refine .bind (ends_sendMsg _ _) fun _ _ ↦ ?_
      refine .bind (ends_fetchone _) fun _ _ ↦ ?_
      refine .bind (ends_py _) fun _ _ ↦ ?_
      refine .bind (ends_py _) fun _ _ ↦ ?_
      refine .bind (ends_sendMsg _ _) fun _ _ ↦ ?_
      refine .bind (ends_py _) fun _ _ ↦ ?_
      exact .bind (ends_sendMsg _ _) fun _ _ ↦ ends_pure _
    · exact ends_pure _
  · refine .bind ?_ fun _ _ ↦ ends_pure _
    unfold finish
    refine .bind (ends_py _) fun _ _ ↦ ?_
    refine .bind (ends_sendMsg _ _) fun _ _ ↦ ?_
    exact .bind (ends_py _) fun _ _ ↦ ends_sendMsg _ _

theorem at_of_connected {next : Int} {loc : Option String} {dpid port : Option Int} {si : Int}
    {l : String} (hb : (db.selectBidirectional next).head? = some (some "True"))
    (hl : (db.selectLocator next).head? = some (loc, dpid, port)) :
    At app db row next ⟨next, dpid, port, si, l, row⟩ where
  vnfId := rfl
  row := rfl
  dpid := by rw [datapath_ok_iff, ready, if_pos hb, hl]

theorem hop_of_nextVnf (h : Serves db flowId row) (hw : At app db row v w)
    (hnext : nextVnf app db row.serviceId v = some v') :
    ∃ w', (hop app db flowId ethSrc w).result = .ok (some w') ∧ At app db row v' w' := by
  obtain ⟨rfl, rfl, hdpid⟩ := hw
  rw [nextVnf_eq_some, found_iff, ← hdpid] at hnext
  obtain ⟨⟨dp, hdp⟩, hnext, hne, b, hb, hfound⟩ := hnext
  have hn : (some v').filter truthy = some v' := by simp [hne]
  by_cases htrue : b = some "True"
  · obtain ⟨loc, dpid, port, si, hl, hsi⟩ := hfound htrue
    subst htrue
    refine ⟨⟨v', dpid, some port, si, loc, w.row⟩, ?_, at_of_connected hb hl⟩
    rw [hop_steer (datapath_eq hdp) hnext hn hb]
    exact bind_result_ok.mpr ⟨_, (steer_result h rfl).mpr ⟨loc, dpid, port, si, hl, hsi, rfl⟩, rfl⟩
  · refine ⟨{ w with vnfId := v' }, ?_, rfl, rfl, ?_⟩
    · rw [hop_skip (datapath_eq hdp) hnext hn hb htrue]
      rfl
    · have hconn : ready app db v' = true := by simp [ready, hb, htrue]
      rw [hconn]
      exact iff_of_true ⟨dp, hdp⟩ rfl

theorem nextVnf_of_hop (h : Serves db flowId row) (hw : At app db row v w)
    (hhop : (hop app db flowId ethSrc w).result = .ok (some w')) :
    nextVnf app db row.serviceId v = some w'.vnfId := by
  obtain ⟨rfl, rfl, hdpid⟩ := hw
  rw [nextVnf_eq_some, found_iff, ← hdpid]
  obtain ⟨dp, hdp, hrest⟩ := bind_result_ok.mp hhop
  obtain ⟨next, hnext, hrest⟩ := bind_result_ok.mp hrest
  have hnext := fetchone_result_ok.mp hnext
  cases hn : next.filter truthy with
  | none =>
    simp only [hn] at hrest
    obtain ⟨-, -, hr⟩ := bind_result_ok.mp hrest
    cases hr
  | some n =>
    simp only [hn] at hrest
    obtain ⟨rfl, hn⟩ := Option.filter_eq_some_iff.mp hn
    have hne : n ≠ 0 := by simpa using hn
    obtain ⟨b, hb, hrest⟩ := bind_result_ok.mp hrest
    have hb := fetchone_result_ok.mp hb
    by_cases htrue : b = some "True"
    · rw [if_pos htrue] at hrest
      obtain ⟨w'', hs, hr⟩ := bind_result_ok.mp hrest
      obtain rfl : w'' = w' := by simpa using hr
      obtain ⟨loc, dpid, port, si, hl, hsi, rfl⟩ := (steer_result h rfl).mp hs
      exact ⟨⟨dp, hdp⟩, hnext, hne, b, hb, fun _ ↦ ⟨loc, dpid, port, si, hl, hsi⟩⟩
    · rw [if_neg htrue] at hrest
      obtain rfl : { w with vnfId := n } = w' := by simpa using hrest
      exact ⟨⟨dp, hdp⟩, hnext, hne, b, hb, fun h ↦ absurd h htrue⟩

theorem walk_ends_iff (h : Serves db flowId row) (hw : At app db row v w) (n : ℕ) :
    Ends (walk app db flowId ethSrc n w) ↔ orbit (nextVnf app db row.serviceId) v n = none := by
  induction n generalizing v w with
  | zero => simp [Ends, walk]
  | succ n ih =>
    rw [walk, ends_bind_iff hop_ends]
    cases hnext : nextVnf app db row.serviceId v with
    | some v' =>
      obtain ⟨w', hhop, hw'⟩ := hop_of_nextVnf h hw hnext
      rw [orbit_succ_of_some hnext, hhop, ← ih hw']
      simp
    | none =>
      refine iff_of_true (fun r hr ↦ ?_) (orbit_succ_of_none hnext n)
      cases r with
      | none => exact ends_pure _
      | some w' =>
        have hsome := nextVnf_of_hop h hw hr
        rw [hnext] at hsome
        cases hsome

/-- A packet-in of the flow reaches the chain loop at VNF `v`. -/
structure Enters (db : Db) (row : FlowRow) (v : Int) : Prop where
  built : ∃ m, matchCommon row = .ok m ∧ m.packs
  service : ∃ spi, row.serviceId = some spi
  first : (db.selectFirstVnfId row.serviceId).head? = some v
  bidirectional : (db.selectBidirectional v).head? = some (some "True")
  locator : ∃ loc dpid port, (db.selectLocator v).head? = some (some loc, dpid, port)

theorem firstVnf_result (hreg : isRegistration msg = false) {serviceId : Option Int}
    {loc : Option String} {dpid port : Option Int} :
    (firstVnf db msg serviceId).result = .ok (v, loc, dpid, port) ↔
      (db.selectFirstVnfId serviceId).head? = some v ∧
      (db.selectBidirectional v).head? = some (some "True") ∧
      (db.selectLocator v).head? = some (loc, dpid, port) := by
  unfold firstVnf
  constructor
  · intro h
    obtain ⟨v', hf, h⟩ := bind_result_ok.mp h
    obtain ⟨b, hb, h⟩ := bind_result_ok.mp h
    split at h
    case isTrue htrue =>
      subst htrue
      obtain ⟨⟨loc', dpid', port'⟩, hl, h⟩ := bind_result_ok.mp h
      cases h
      exact ⟨fetchone_result_ok.mp hf, fetchone_result_ok.mp hb, fetchone_result_ok.mp hl⟩
    case isFalse =>
      rw [hreg] at h
      cases h
  · intro ⟨hf, hb, hl⟩
    simp [fetchone_eq hf, fetchone_eq hb, fetchone_eq hl]

theorem Enters.firstVnf (h : Enters db row v) (hreg : isRegistration msg = false) :
    ∃ loc dpid port, (db.selectLocator v).head? = some (some loc, dpid, port) ∧
      (firstVnf db msg row.serviceId).result = .ok (v, some loc, dpid, port) := by
  obtain ⟨loc, dpid, port, hl⟩ := h.locator
  exact ⟨loc, dpid, port, hl, (firstVnf_result hreg).mpr ⟨h.first, h.bidirectional, hl⟩⟩

theorem ends_bind_pure {α β : Type} {x : Ctl α} (b : β) : Ends (x >>= fun _ ↦ pure b) ↔ Ends x := by
  unfold Ends
  cases h : x.result with
  | ok a => simp [bind_of_ok h]
  | error e => simp [bind_of_error h]

theorem install_ends_iff (h : Serves db flowId row) (hreg : isRegistration msg = false)
    {entry : OFPMatch} (hentry : matchEntryPoint msg.inPort row = .ok entry) (n : ℕ) :
    Ends (install n app db msg flowId row entry) ↔
      ∀ v, Enters db row v → orbit (nextVnf app db row.serviceId) v n = none := by
  obtain ⟨spi, hspi⟩ := h.service
  by_cases hE : ∃ v, Enters db row v
  · obtain ⟨v, hv⟩ := hE
    obtain ⟨loc, dpid, port, hl, hf⟩ := hv.firstVnf hreg
    let w : Walk := ⟨v, dpid, port, (db.selectVnfIds row.serviceId).length, loc, row⟩
    have hat : At app db row v w := at_of_connected hv.bidirectional hl
    have hwalk : Ends (walk app db flowId msg.packet.ethSrc n w) ↔ _ := walk_ends_iff h hat n
    obtain ⟨c, hc⟩ := h.matched
    have hp : entry.packs := (matchEntryPoint_packs hc.common hentry).mpr hc.packs
    rw [install_eq hspi hf, addFlow_of_packs hp (by simp), ends_bind_iff (by simp [Ends])]
    constructor
    · intro hends v' hv'
      obtain rfl : v = v' := Option.some.inj (hv.first.symm.trans hv'.first)
      exact hwalk.mp (hends () rfl)
    · intro hnone _ _
      exact hwalk.mpr (hnone v hv)
  · rcases install_cases app db msg flowId row entry with ⟨e, he, hraise⟩ | hfirst
    · refine iff_of_true ?_ fun v hv ↦ absurd ⟨v, hv⟩ hE
      simpa [Ends, hraise] using he
    · obtain ⟨v, loc, dpid, port, -, -, hf⟩ := hfirst
      obtain ⟨hf, hb, hl⟩ := (firstVnf_result hreg).mp hf
      obtain ⟨c, hc⟩ := h.matched
      exact absurd ⟨v, ⟨c, hc.common, hc.packs⟩, h.service, hf, hb, loc, dpid, port, hl⟩ hE

theorem handler_ends_iff (h : OfFlow app flowId msg) (hrow : RowOf db flowId row) (n : ℕ) :
    Ends (packetInHandler n app db msg) ↔
      ∀ v, Enters db row v → orbit (nextVnf app db row.serviceId) v n = none := by
  obtain ⟨r, hr, rfl⟩ : ∃ r, (db.selectFlows flowId).head? = some r ∧ deriveTypes r = row := by
    simpa [RowOf] using hrow
  rw [handler_of_not_registration h.notRegistration, ends_bind_pure, ends_catching]
  cases hentry : matchEntryPoint msg.inPort (deriveTypes r) with
  | error e =>
    refine iff_of_true ?_ fun v hv ↦ ?_
    · rw [activate_raised h hr hentry]
      exact ends_raised e
    · obtain ⟨m, hm, -⟩ := hv.built
      obtain ⟨entry, he⟩ := flowMatch_ok_of_ok hm
        ((.inPort, some (.int msg.inPort)) :: ethFields (deriveTypes r))
      cases hentry.symm.trans he
  | ok entry =>
    obtain ⟨m, hm⟩ := flowMatch_ok_of_ok hentry (ethFields (deriveTypes r))
    have hm : matchCommon (deriveTypes r) = .ok m := hm
    by_cases hp : m.packs
    swap
    · obtain ⟨e, he, hraise⟩ := activate_not_packs app h.metadata h.tableId hr hentry hm hp
      refine iff_of_true (by simpa [Ends, hraise] using he) fun v hv ↦ ?_
      obtain ⟨m', hm', hp'⟩ := hv.built
      obtain rfl : m = m' := Except.ok.inj (hm.symm.trans hm')
      exact absurd hp' hp
    have hact := activate_eq h hr hentry hm hp n
    have hresult : Ends (activate n app db msg) ↔
        Ends (install n app db msg flowId (deriveTypes r) entry) := by rw [Ends, hact, Ends]
    rw [hresult]
    cases hspi : (deriveTypes r).serviceId with
    | some spi =>
      rw [← hspi]
      exact install_ends_iff ⟨⟨m, ⟨hrow, hm⟩, hp⟩, ⟨spi, hspi⟩⟩ h.notRegistration hentry n
    | none =>
      refine iff_of_true ?_ fun v hv ↦ ?_
      · rcases install_cases app db msg flowId (deriveTypes r) entry with
          ⟨e, he, hraise⟩ | ⟨v, loc, dpid, port, spi, hsome, -⟩
        · simpa [Ends, hraise] using he
        · cases hspi.symm.trans hsome
      · obtain ⟨spi, hsome⟩ := hv.service
        cases hspi.symm.trans hsome

/-- The loop never visits a VNF twice, and does not go on to a VNF without a row of its own once it
has visited as many VNFs as the service has rows. -/
def Straight (app : SfcApp) (db : Db) (serviceId : Option Int) (v : Int) : Prop :=
  NoReturn (nextVnf app db serviceId) v ∧
    ∀ x, orbit (nextVnf app db serviceId) v (db.selectVnfIds serviceId).length = some x →
      x ∈ db.selectVnfIds serviceId

theorem flow1_straight : Straight Demo.app Demo.db (some 6) 1 := by
  have hends : orbit (nextVnf Demo.app Demo.db (some 6)) 1 2 = none := by decide
  refine ⟨noReturn_of_ends hends, fun x hx ↦ ?_⟩
  cases hends.symm.trans hx

def cycleDb : Db where
  flows := [Demo.flow1]
  flows_id := Demo.flow1_ids
  service := [⟨6, none, 1, some 2, 2⟩, ⟨6, some 1, 2, some 1, 1⟩]
  vnf := Demo.db.vnf

end NshSfc.Iterations
