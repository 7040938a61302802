import NshSfc.Demo
import NshSfc.Operations

namespace NshSfc.Registrations

open Library Library.Script Python Database Database.Db OpenFlow RowMatch App Packets Controller Sent Handler
  Operations

structure Handling where
  app : SfcApp
  msg : PacketIn
  fuel : ℕ

def handled (db : Db) (regs : List Handling) : Db :=
  regs.foldl (fun db r ↦ committed db (packetInHandler r.fuel r.app db r.msg)) db

/-- Where a VNF is: its locator address, its switch and its port. -/
structure Place where
  loc : String
  dpid : Option Int
  inPort : Option Int
deriving DecidableEq

def Located (db : Db) (vnfId : Int) (p : Place) : Prop :=
  (db.selectLocator vnfId).head? = some (some p.loc, p.dpid, p.inPort)

def Registers (msg : PacketIn) (vnfId : Int) (p : Place) : Prop :=
  isRegistration msg ∧ (∃ info, msg.packet.registration = some info ∧ info.vnfId = some vnfId ∧
    info.iftype = some 3) ∧ p = ⟨msg.packet.ethSrc, some msg.datapath.id, some msg.inPort⟩

section Chain

variable (db : Db) (serviceId : Option Int)

def NextVnf (v v' : Int) : Prop :=
  (db.selectNextVnfId serviceId v).head? = some (some v') ∧ truthy v'

def PassesOver (v v' : Int) : Prop :=
  NextVnf db serviceId v v' ∧
    ∃ b, (db.selectBidirectional v').head? = some b ∧ b ≠ some "True"

/-- Behind `v`, the VNF that the loop steers to is `v'` with service index `si'`. -/
structure Steers (v v' si' : Int) : Prop where
  next : ∃ x, Relation.ReflTransGen (PassesOver db serviceId) v x ∧ NextVnf db serviceId x v'
  bidirectional : (db.selectBidirectional v').head? = some (some "True")
  serviceIndex : (db.selectServiceIndex serviceId v').head? = some si'

def EndsAt (v : Int) : Prop :=
  ∃ x next, Relation.ReflTransGen (PassesOver db serviceId) v x ∧
    (db.selectNextVnfId serviceId x).head? = some next ∧ next.filter truthy = none

structure FirstVnf (v : Int) : Prop where
  first : (db.selectFirstVnfId serviceId).head? = some v
  bidirectional : (db.selectBidirectional v).head? = some (some "True")

/-- The VNFs that the handler steers to, with their service indices. That of the first one is the
number of VNFs. -/
inductive Steered : Int → Int → Prop
  | first {v : Int} (h : FirstVnf db serviceId v) :
      Steered v (db.selectVnfIds serviceId).length
  | next {v si v' si' : Int} (h : Steered v si) (hs : Steers db serviceId v v' si') :
      Steered v' si'

end Chain

section Rules

/-- The rules that the handler installs along the chain of the flow, when its VNFs are at the places
`at_`. `out` tells to which port a VNF that is not the last one is delivered. -/
inductive PlacedRule (db : Db) (at_ : Int → Place → Prop) (out : Place → Place → Int → Prop)
    (msg : PacketIn) (row : FlowRow) : Message → Prop
  | source {v : Int} (hv : FirstVnf db row.serviceId v) {p : Place} (hp : at_ v p) {m : OFPMatch}
      (hm : matchEntryPoint msg.inPort row = .ok m) {spi : Int} (hspi : row.serviceId = some spi) :
      PlacedRule db at_ out msg row (msg.datapath, .add 0 8 m
        (flowInstructions (encapActions spi (db.selectVnfIds row.serviceId).length p.loc
          msg.packet.ethSrc) none (some 3)))
  | aware {v si v' si' : Int} (hv : Steered db row.serviceId v si)
      (hs : Steers db row.serviceId v v' si') {p p' : Place} (hp : at_ v p) (hp' : at_ v' p')
      {dp : Datapath} (hdp : p.dpid = some dp.id) {spi : Int} (hspi : row.serviceId = some spi) :
      PlacedRule db at_ out msg row (dp, .add 1 8 (matchSpiSi spi si')
        (flowInstructions [.setField .ethDst (.str p'.loc)] (some row.id) (some 3)))
  | middle {v si v' si' : Int} (hv : Steered db row.serviceId v si)
      (hs : Steers db row.serviceId v v' si') {p p' : Place} (hp : at_ v p) (hp' : at_ v' p')
      {dp : Datapath} (hdp : p.dpid = some dp.id) {m : OFPMatch}
      (hm : matchMiddle p.inPort row = .ok m) {spi : Int} (hspi : row.serviceId = some spi) :
      PlacedRule db at_ out msg row (dp, .add 0 6 m
        (flowInstructions (encapActions spi si' p'.loc msg.packet.ethSrc) (some row.id) (some 3)))
  | delivery {v si v' si' : Int} (hv : Steered db row.serviceId v si)
      (hs : Steers db row.serviceId v v' si') {p p' : Place} (hp : at_ v p) (hp' : at_ v' p')
      {dp : Datapath} (hdp : p.dpid = some dp.id) {spi : Int} (hspi : row.serviceId = some spi)
      {outPort : Int} (hout : out p p' outPort) :
      PlacedRule db at_ out msg row (dp, .add 1 6 (matchHop p.loc spi si)
        (flowInstructions [.decap, .decap, .output (.phys outPort)] (some row.id) none))
  | last {v si : Int} (hv : Steered db row.serviceId v si) (hend : EndsAt db row.serviceId v)
      {p : Place} (hp : at_ v p) {dp : Datapath} (hdp : p.dpid = some dp.id) {spi : Int}
      (hspi : row.serviceId = some spi) :
      PlacedRule db at_ out msg row (dp, .add 1 8 (matchSpiSi spi 0)
        (flowInstructions [.decap, .decap] (some row.id) (some 3)))
  | lastDelivery {v si : Int} (hv : Steered db row.serviceId v si)
      (hend : EndsAt db row.serviceId v) {p : Place} (hp : at_ v p) {dp : Datapath}
      (hdp : p.dpid = some dp.id) {spi : Int} (hspi : row.serviceId = some spi) {inPort : Int}
      (hport : p.inPort = some inPort) :
      PlacedRule db at_ out msg row (dp, .add 1 6 (matchHop p.loc spi 1)
        (flowInstructions [.decap, .decap, .output (.phys inPort)] (some row.id) none))

def PortOfNext (_ p' : Place) (outPort : Int) : Prop := p'.inPort = some outPort

variable {db : Db} {at_ at' : Int → Place → Prop} {out out' : Place → Place → Int → Prop}
  {msg : PacketIn} {row : FlowRow} {n : Message}

theorem PlacedRule.mono (h : ∀ v p, at_ v p → at' v p) (hout : ∀ p p' q, out p p' q → out' p p' q)
    (hn : PlacedRule db at_ out msg row n) : PlacedRule db at' out' msg row n := by
  cases hn with
  | source hv hp hm hspi => exact .source hv (h _ _ hp) hm hspi
  | aware hv hs hp hp' hdp hspi => exact .aware hv hs (h _ _ hp) (h _ _ hp') hdp hspi
  | middle hv hs hp hp' hdp hm hspi => exact .middle hv hs (h _ _ hp) (h _ _ hp') hdp hm hspi
  | delivery hv hs hp hp' hdp hspi hq =>
    exact .delivery hv hs (h _ _ hp) (h _ _ hp') hdp hspi (hout _ _ _ hq)
  | last hv hend hp hdp hspi => exact .last hv hend (h _ _ hp) hdp hspi
  | lastDelivery hv hend hp hdp hspi hport => exact .lastDelivery hv hend (h _ _ hp) hdp hspi hport

end Rules

section Walk

variable {app : SfcApp} {db : Db} {msg : PacketIn} {flowId : ℕ} {w : Walk}

structure AtVnf (db : Db) (w : Walk) (v : Int) : Prop where
  steered : Steered db w.row.serviceId v w.lastSi
  passed : Relation.ReflTransGen (PassesOver db w.row.serviceId) v w.vnfId
  located : Located db v ⟨w.lastLoc, w.dpid, w.inPort⟩

theorem steer_placed {dp : Datapath} (hdp : w.dpid = some dp.id) (hw : RowOf db flowId w.row)
    {v v' : Int} (hat : AtVnf db w v) (hnext : NextVnf db w.row.serviceId w.vnfId v')
    (hb : (db.selectBidirectional v').head? = some (some "True")) :
    Ensures (PlacedRule db (Located db) PortOfNext msg w.row)
      (steer db flowId msg.packet.ethSrc dp w v') fun w' ↦ w'.row = w.row ∧ AtVnf db w' v' := by
  unfold steer
  refine .bind (fetchone_ensures _) fun ⟨locatorAddr, dpid, inPort2⟩ _ hloc ↦ ?_
  refine .bind (fetchone_ensures _) fun currentSi _ hsi ↦ ?_
  refine .bind (py_ensures _) fun spi _ hspi ↦ ?_
  refine .bind (py_ensures _) fun loc _ htext ↦ ?_
  have hspi : w.row.serviceId = some spi := intOfColumn_ok.mp hspi
  obtain rfl : locatorAddr = some loc := by
    cases locatorAddr with
    | none => cases htext
    | some l => exact congrArg some (Except.ok.inj htext)
  have hs : Steers db w.row.serviceId v v' currentSi := ⟨⟨w.vnfId, hat.passed, hnext⟩, hb, hsi⟩
  have hv' : Located db v' ⟨loc, dpid, inPort2⟩ := hloc
  refine .bind (addFlow_ensures fun _ ↦ .aware hat.steered hs hat.located hv' hdp hspi) fun _ _ _ ↦ ?_
  refine .bind (fetchone_ensures _) fun row _ hrow ↦ ?_
  simp only [hw.eq_of_head hrow]
  refine .bind (py_ensures _) fun m _ hm ↦ ?_
  refine .bind (py_ensures _) fun spi' _ hspi' ↦ ?_
  obtain rfl : spi = spi' := Option.some.inj (hspi.symm.trans (intOfColumn_ok.mp hspi'))
  refine .bind (addFlow_ensures fun _ ↦ .middle hat.steered hs hat.located hv' hdp hm hspi)
    fun _ _ _ ↦ ?_
  refine .bind (py_ensures _) fun outPort _ hport ↦ ?_
  have hport : PortOfNext ⟨w.lastLoc, w.dpid, w.inPort⟩ ⟨loc, dpid, inPort2⟩ outPort :=
    intOfColumn_ok.mp hport
  refine .bind (addFlow_ensures fun _ ↦ .delivery hat.steered hs hat.located hv' hdp hspi hport)
    fun _ _ _ ↦ ?_
  exact .pure ⟨rfl, .next hat.steered hs, .refl, hv'⟩

theorem finish_placed {dp : Datapath} (hdp : w.dpid = some dp.id) {v : Int} (hat : AtVnf db w v)
    (hend : EndsAt db w.row.serviceId v) :
    Ensures (PlacedRule db (Located db) PortOfNext msg w.row) (finish dp w) fun _ ↦ True := by
  unfold finish
  refine .bind (py_ensures _) fun spi _ hspi ↦ ?_
  have hspi : w.row.serviceId = some spi := intOfColumn_ok.mp hspi
  refine .bind (addFlow_ensures fun _ ↦ .last hat.steered hend hat.located hdp hspi) fun _ _ _ ↦ ?_
  refine .bind (py_ensures _) fun inPort _ hport ↦ ?_
  have hport : w.inPort = some inPort := intOfColumn_ok.mp hport
  exact (addFlow_ensures fun _ ↦ .lastDelivery hat.steered hend hat.located hdp hspi hport).mono
    (fun _ h ↦ h) fun _ _ ↦ trivial

theorem hop_placed (hw : RowOf db flowId w.row) {v : Int} (hat : AtVnf db w v) :
    Ensures (PlacedRule db (Located db) PortOfNext msg w.row)
      (hop app db flowId msg.packet.ethSrc w) fun w' ↦ ∀ x ∈ w', x.row = w.row ∧ ∃ v', AtVnf db x v' := by
  unfold hop
  refine .bind (datapath_ensures _) fun dp _ hdp ↦ ?_
  refine .bind (fetchone_ensures _) fun next _ hsel ↦ ?_
  split
  case h_1 v' hnext =>
    obtain ⟨rfl, htruthy⟩ := Option.filter_eq_some_iff.mp hnext
    have hnext : NextVnf db w.row.serviceId w.vnfId v' := ⟨hsel, htruthy⟩
    refine .bind (fetchone_ensures _) fun bidirectional _ hb ↦ ?_
    split
    case isTrue htrue =>
      subst htrue
      refine .bind (steer_placed hdp.2 hw hat hnext hb) fun w' _ hw' ↦ .pure ?_
      rintro x ⟨⟩
      exact ⟨hw'.1, v', hw'.2⟩
    case isFalse hne =>
      refine .pure ?_
      rintro x ⟨⟩
      exact ⟨rfl, v, hat.steered, hat.passed.tail ⟨hnext, bidirectional, hb, hne⟩, hat.located⟩
  case h_2 hnone =>
    have hend : EndsAt db w.row.serviceId v := ⟨w.vnfId, next, hat.passed, hsel, hnone⟩
    exact .bind (finish_placed hdp.2 hat hend) fun _ _ _ ↦ .pure (by simp)

theorem walk_placed (fuel : ℕ) (hw : RowOf db flowId w.row) {v : Int} (hat : AtVnf db w v) :
    Ensures (PlacedRule db (Located db) PortOfNext msg w.row)
      (walk app db flowId msg.packet.ethSrc fuel w) fun _ ↦ True := by
  induction fuel generalizing w v with
  | zero => exact .raise _
  | succ fuel ih =>
    refine .bind (hop_placed hw hat) fun w' _ hw' ↦ ?_
    cases w' with
    | none => exact .pure trivial
    | some w' =>
      obtain ⟨hrow, v', hat'⟩ := hw' w' rfl
      exact hrow ▸ ih (hrow.symm ▸ hw) hat'

theorem firstVnf_located (hreg : isRegistration msg = false) {serviceId : Option Int} {v : Int}
    {loc : String} {dpid inPort : Option Int}
    (h : (firstVnf db msg serviceId).result = .ok (v, some loc, dpid, inPort)) :
    FirstVnf db serviceId v ∧ Located db v ⟨loc, dpid, inPort⟩ := by
  obtain ⟨vnfId, hfirst, h⟩ := bind_result_ok.mp h
  obtain ⟨bidirectional, hb, h⟩ := bind_result_ok.mp h
  split at h
  case isTrue htrue =>
    subst htrue
    obtain ⟨⟨l, d, p⟩, hloc, h⟩ := bind_result_ok.mp h
    cases h
    exact ⟨⟨fetchone_result_ok.mp hfirst, fetchone_result_ok.mp hb⟩, fetchone_result_ok.mp hloc⟩
  case isFalse =>
    rw [if_neg (by simp [hreg])] at h
    cases h

theorem install_placed (hreg : isRegistration msg = false) {row : FlowRow} {entry : OFPMatch}
    (hrow : RowOf db flowId row) (hentry : matchEntryPoint msg.inPort row = .ok entry) (fuel : ℕ) :
    ∀ n ∈ (install fuel app db msg flowId row entry).sent,
      PlacedRule db (Located db) PortOfNext msg row n := by
  rcases install_cases app db msg flowId row entry with
    ⟨e, -, he⟩ | ⟨v, loc, dpid, inPort, spi, hspi, hf⟩
  · simp [he]
  obtain ⟨hfirst, hloc⟩ := firstVnf_located hreg hf
  have hat : AtVnf db ⟨v, dpid, inPort, (db.selectVnfIds row.serviceId).length, loc, row⟩ v :=
    ⟨.first hfirst, .refl, hloc⟩
  have hwalk : Ensures (PlacedRule db (Located db) PortOfNext msg row)
      (walk app db flowId msg.packet.ethSrc fuel _) fun _ ↦ True := walk_placed fuel hrow hat
  rw [install_eq hspi hf]
  have hsource : PlacedRule db (Located db) PortOfNext msg row _ := .source hfirst hloc hentry hspi
  exact (Ensures.bind (addFlow_ensures fun _ ↦ hsource) fun _ _ _ ↦ hwalk).sent

theorem handler_placed (hreg : isRegistration msg = false) {fuel : ℕ} {n : Message}
    (hn : n ∈ (packetInHandler fuel app db msg).sent) :
    ∃ flowId row m, msg.metadata = some flowId ∧ Matched db flowId row m ∧
      ((∃ dp ∈ app.datapaths, n = (dp, .delete 0 m)) ∨
        PlacedRule db (Located db) PortOfNext msg row n) := by
  rw [handler_sent hreg] at hn
  cases hid : msg.metadata with
  | none => simp [activate, hid] at hn
  | some flowId =>
    by_cases ht : msg.tableId = 2
    swap
    · simp [activate, hid, ht] at hn
    have hfirst : (activate fuel app db msg).sent = [] ∨ ∃ row m rest, Matched db flowId row m ∧
        (activate fuel app db msg).sent = deletions app m ++ rest ∧
        ∀ n ∈ rest, InstallRule app msg row n := activate_deletes_first hid fuel
    rcases hfirst with hnil | ⟨row, m, -, hm, -, -⟩
    · simp [hnil] at hn
    obtain ⟨r, hr, rfl⟩ := hm.head
    obtain ⟨entry, hentry⟩ := hm.exists_entry msg.inPort
    rw [activate_table2 hid ht hr hentry hm.common hm.packs] at hn
    refine ⟨flowId, deriveTypes r, m, rfl, hm, ?_⟩
    rcases List.mem_append.mp hn with hn | hn
    · obtain ⟨dp, hdp, rfl⟩ := List.mem_map.mp hn
      exact .inl ⟨dp, hdp, rfl⟩
    · exact .inr (install_placed hreg hm.rowOf hentry fuel n hn)

end Walk

section History

variable {db : Db} {regs : List Handling} {r : Handling} {v : Int} {p : Place}

theorem handled_concat : handled db (regs ++ [r]) =
    committed (handled db regs) (packetInHandler r.fuel r.app (handled db regs) r.msg) := by
  simp [handled]

theorem handling_cases (db : Db) (r : Handling) :
    committed db (packetInHandler r.fuel r.app db r.msg) = db ∨
    ∃ info id, isRegistration r.msg ∧ r.msg.packet.registration = some info ∧
      info.vnfId = some id ∧ committed db (packetInHandler r.fuel r.app db r.msg) =
        db.insertVnf (vnfRow r.msg info id) := by
  unfold committed
  split
  case h_2 => exact .inl rfl
  case h_1 db' hok =>
    obtain ⟨db₁, hreg, hok⟩ := bind_result_ok.mp hok
    obtain ⟨-, -, hok⟩ := bind_result_ok.mp hok
    obtain rfl : db₁ = db' := Except.ok.inj hok
    unfold register at hreg
    by_cases hmsg : isRegistration r.msg
    swap
    · rw [if_neg hmsg] at hreg
      exact .inl (Except.ok.inj hreg).symm
    rw [if_pos hmsg] at hreg
    cases hinfo : r.msg.packet.registration with
    | none =>
      rw [hinfo] at hreg
      cases hreg
    | some info =>
      rw [hinfo] at hreg
      simp only at hreg
      cases hid : info.vnfId with
      | none =>
        rw [hid] at hreg
        exact .inl (Except.ok.inj hreg).symm
      | some id =>
        rw [hid] at hreg
        exact .inr ⟨info, id, hmsg, rfl, hid, (Except.ok.inj hreg).symm⟩

/-- The place of the VNF before the packets, or that of its first registration with interface type 3
which the table has taken. -/
inductive Earliest (db : Db) (regs : List Handling) (v : Int) (p : Place) : Prop
  | stored (h : Located db v p)
  | registered {before after : List Handling} {r : Handling} (hregs : regs = before ++ r :: after)
      (hnew : (handled db before).selectLocator v = []) (hr : Registers r.msg v p)
      (htaken : handled db (before ++ [r]) ≠ handled db before)

theorem insertVnf_of_collides {row : VnfRow} (h : db.vnf.any (db.key.collides row)) :
    db.insertVnf row = db := if_pos h

theorem located_insertVnf (h : Located db v p) (row : VnfRow) : Located (db.insertVnf row) v p := by
  rw [Located, selectLocator_insertVnf]
  exact List.mem_head?_append_of_mem_head? h

theorem located_concat (h : Located (handled db regs) v p) (r : Handling) :
    Located (handled db (regs ++ [r])) v p := by
  rw [handled_concat]
  rcases handling_cases (handled db regs) r with heq | ⟨info, id, -, -, -, heq⟩
  · rwa [heq]
  · rw [heq]
    exact located_insertVnf h _

theorem located_append (h : Located (handled db regs) v p) (regs' : List Handling) :
    Located (handled db (regs ++ regs')) v p := by
  induction regs' using List.reverseRecOn with
  | nil => rwa [List.append_nil]
  | append_singleton regs' r ih =>
    rw [← List.append_assoc]
    exact located_concat ih r

theorem located_of_concat (hold : (handled db regs).selectLocator v ≠ []) {r : Handling}
    (h : Located (handled db (regs ++ [r])) v p) : Located (handled db regs) v p := by
  rw [handled_concat] at h
  rcases handling_cases (handled db regs) r with heq | ⟨info, id, -, -, -, heq⟩
  · rwa [heq] at h
  · rwa [heq, Located, selectLocator_insertVnf, List.head?_append_of_ne_nil _ hold] at h

theorem registers_of_located (hnew : (handled db regs).selectLocator v = []) {r : Handling}
    (h : Located (handled db (regs ++ [r])) v p) :
    Registers r.msg v p ∧ handled db (regs ++ [r]) ≠ handled db regs := by
  have hne : handled db (regs ++ [r]) ≠ handled db regs := by
    intro hsame
    rw [hsame, Located, hnew] at h
    cases h
  refine ⟨?_, hne⟩
  rw [handled_concat] at h hne
  rcases handling_cases (handled db regs) r with heq | ⟨info, id, hmsg, hinfo, hid, heq⟩
  · exact absurd heq hne
  rw [heq, Located, selectLocator_insertVnf, hnew, List.nil_append] at h
  split at h
  case isFalse => cases h
  case isTrue hrow =>
    obtain ⟨-, hv, hthree⟩ := hrow
    have hv : id = v := hv
    refine ⟨hmsg, ⟨info, hinfo, by rw [hid, hv], hthree⟩, ?_⟩
    simp only [vnfRow, List.head?_cons, Option.some.injEq, Prod.mk.injEq] at h
    obtain ⟨hloc, hdpid, hport⟩ := h
    cases p
    simp_all

theorem located_of_registers (hnew : (handled db regs).selectLocator v = []) {r : Handling}
    (hr : Registers r.msg v p) (htaken : handled db (regs ++ [r]) ≠ handled db regs) :
    Located (handled db (regs ++ [r])) v p := by
  obtain ⟨-, ⟨info, hinfo, hid, hthree⟩, rfl⟩ := hr
  rw [handled_concat] at htaken ⊢
  rcases handling_cases (handled db regs) r with heq | ⟨info', id, -, hinfo', hid', heq⟩
  · exact absurd heq htaken
  · obtain rfl : info = info' := Option.some.inj (hinfo.symm.trans hinfo')
    obtain rfl : v = id := Option.some.inj (hid.symm.trans hid')
    rw [heq] at htaken ⊢
    rw [Located, selectLocator_insertVnf, hnew,
      if_pos ⟨fun h ↦ htaken (insertVnf_of_collides h), rfl, hthree⟩]
    rfl

theorem Earliest.concat (h : Earliest db regs v p) (r : Handling) :
    Earliest db (regs ++ [r]) v p := by
  cases h with
  | stored h => exact .stored h
  | @registered before after r' hregs hnew hr htaken =>
    have hregs' : regs ++ [r] = before ++ r' :: (after ++ [r]) := by
      rw [hregs, List.append_assoc, List.cons_append]
    exact .registered hregs' hnew hr htaken

/-- The handler finds a VNF at its earliest place, whatever has been registered since. -/
theorem located_iff : Located (handled db regs) v p ↔ Earliest db regs v p := by
  constructor
  · intro h
    induction regs using List.reverseRecOn with
    | nil => exact .stored h
    | append_singleton regs r ih =>
      by_cases hnew : (handled db regs).selectLocator v = []
      · obtain ⟨hr, htaken⟩ := registers_of_located hnew h
        exact .registered rfl hnew hr htaken
      · exact (ih (located_of_concat hnew h)).concat r
  · intro h
    cases h with
    | stored h =>
      have hstart : Located (handled db []) v p := h
      exact located_append hstart regs
    | @registered before after r hregs hnew hr htaken =>
      have hall := located_append (located_of_registers hnew hr htaken) after
      rwa [hregs, ← List.singleton_append, ← List.append_assoc]

end History

/-- The rules that a packet-in installs along the chain use the earliest places of the VNFs. To which
port a VNF that is not the last is delivered is left open. -/
theorem rules_at_earliest (db : Db) (regs : List Handling) (app : SfcApp) {msg : PacketIn}
    (hreg : isRegistration msg = false) (fuel : ℕ) {n : Message}
    (hn : n ∈ (packetInHandler fuel app (handled db regs) msg).sent) {k : FlowKey}
    {i : List Instruction} (hadd : n.2.toMod = .add k i) :
    ∃ flowId row m, msg.metadata = some flowId ∧ Matched (handled db regs) flowId row m ∧
      PlacedRule (handled db regs) (Earliest db regs) (fun _ _ _ ↦ True) msg row n := by
  obtain ⟨flowId, row, m, hid, hm, ⟨dp, -, rfl⟩ | hrule⟩ := handler_placed hreg hn
  · cases hadd
  · exact ⟨flowId, row, m, hid, hm,
      hrule.mono (fun _ _ hp ↦ located_iff.mp hp) fun _ _ _ _ ↦ trivial⟩

section Demo

def demoRegistration (dpid : Int) (mac : String) : PacketIn where
  datapath := ⟨dpid, 0⟩
  inPort := 1
  tableId := 2
  metadata := none
  packet :=
    { ethSrc := mac
      ethDst := "11:12:13:14:15:16"
      ethType := 0x0800
      ipv4 := some ⟨0x0A000001, 0x0A0000FE⟩
      ipProto := some 17
      tcp := none
      udp := some (40000, 60000)
      ipv6 := none
      registration := some ⟨some 1, some "forward1", some 1, some 1, none, some 3, some "True"⟩
      ipv4_header := fun _ ↦ rfl }

def demoDb : Db where
  flows := [Demo.flow1]
  flows_id := by decide
  service := [⟨6, none, 1, none, 1⟩]
  vnf := []

def demoMove : List Handling :=
  [⟨Demo.app, demoRegistration 1 "00:00:00:00:00:01", 0⟩,
   ⟨Demo.app, demoRegistration 5 "00:00:00:00:00:05", 0⟩]

def demoSource (mac : String) : Message :=
  (⟨4, 0⟩, .add 0 8 (.appended ((.inPort, .int 1) :: Demo.flow1Match.list))
    (flowInstructions (encapActions 6 1 mac "00:00:00:00:00:04") none (some 3)))

theorem rules_at_earliest_demo : ∃ flowId row m, Demo.packetIn.metadata = some flowId ∧
    Matched (handled demoDb demoMove) flowId row m ∧
    PlacedRule (handled demoDb demoMove) (Earliest demoDb demoMove) (fun _ _ _ ↦ True) Demo.packetIn
      row (demoSource "00:00:00:00:00:01") :=
  rules_at_earliest demoDb demoMove Demo.app (by decide) 1 (by decide +kernel) rfl

/-- Whichever key the table has, the rules for VNF 1 are for the place that it has left. -/
theorem moved_vnf_at_old_place :
    Registers (demoRegistration 5 "00:00:00:00:00:05") 1 ⟨"00:00:00:00:00:05", some 5, some 1⟩ ∧
    ∀ key, demoSource "00:00:00:00:00:01" ∈ (packetInHandler 1 Demo.app
        (handled { demoDb with key := key } demoMove) Demo.packetIn).sent ∧
      demoSource "00:00:00:00:00:05" ∉ (packetInHandler 1 Demo.app
        (handled { demoDb with key := key } demoMove) Demo.packetIn).sent := by
  refine ⟨⟨by decide, ⟨_, rfl, rfl, rfl⟩, rfl⟩, fun key ↦ ?_⟩
  cases key <;> decide +kernel

end Demo

end NshSfc.Registrations
