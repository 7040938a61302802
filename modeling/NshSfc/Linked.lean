import NshSfc.Handler

namespace NshSfc.Sites

open OpenFlow Packets Controller

structure Site where
  id : Int
  loc : String
  dp : Datapath
  port : Int

def Site.attachment (v : Site) : Int × Int := (v.dp.id, v.port)

def sourceMod (msg : PacketIn) (spi : Int) (entry : OFPMatch) (len : ℕ) (loc : String) : Message :=
  (msg.datapath, .add 0 8 entry
    (flowInstructions (encapActions spi len loc msg.packet.ethSrc) none (some 3)))

end NshSfc.Sites

namespace NshSfc.Linked

open Library Library.Script Python Database OpenFlow RowMatch App Packets Controller Sent Handler
  Sites

/-- The rows of a service whose VNFs are a linked list. The service index of a VNF may depend on
its place in the list. -/
def linkRows (si : List Site → Int) (spi : Int) : Option Int → List Site → List ServiceRow
  | _, [] => []
  | prev, v :: vs =>
    ⟨spi, prev, v.id, vs.head?.map Site.id, si (v :: vs)⟩ :: linkRows si spi (some v.id) vs

def bidirectional (db : Db) (v : Site) : Bool :=
  (db.selectBidirectional v.id).head? = some (some "True")

structure Listed (db : Db) (spi : Int) (si : List Site → Int) (vs : List Site) : Prop where
  ids : (vs.map Site.id).Nodup
  rows : (db.serviceRows (some spi)).Perm (linkRows si spi none vs)

structure Known (db : Db) (v : Site) : Prop where
  registered : ∃ b, (db.selectBidirectional v.id).head? = some b
  locator : bidirectional db v →
    (db.selectLocator v.id).head? = some (some v.loc, some v.dp.id, some v.port)

theorem bidirectional_iff {db : Db} {v : Site} : bidirectional db v ↔
    (db.selectBidirectional v.id).head? = some (some "True") := by
  simp [bidirectional]

theorem Known.not_bidirectional {db : Db} {v : Site} (h : Known db v) (hb : ¬ bidirectional db v) :
    ∃ b, (db.selectBidirectional v.id).head? = some b ∧ b ≠ some "True" := by
  obtain ⟨b, hsel⟩ := h.registered
  refine ⟨b, hsel, ?_⟩
  rintro rfl
  exact hb (bidirectional_iff.mpr hsel)

section Rows

variable {si : List Site → Int} {spi : Int}

theorem linkRows_length (prev : Option Int) (vs : List Site) :
    (linkRows si spi prev vs).length = vs.length := by
  induction vs generalizing prev with
  | nil => rfl
  | cons v vs ih => simp [linkRows, ih]

theorem linkRows_vnfId (prev : Option Int) (vs : List Site) :
    (linkRows si spi prev vs).map (·.vnfId) = vs.map Site.id := by
  induction vs generalizing prev with
  | nil => rfl
  | cons v vs ih => simp [linkRows, ih]

theorem mem_linkRows (prev : Option Int) {vs : List Site} {v : Site} {rest : List Site}
    (h : v :: rest <:+ vs) :
    ∃ p, ⟨spi, p, v.id, rest.head?.map Site.id, si (v :: rest)⟩ ∈ linkRows si spi prev vs := by
  induction vs generalizing prev with
  | nil => simp at h
  | cons u vs ih =>
    rcases List.suffix_cons_iff.mp h with heq | h
    · cases heq
      exact ⟨prev, List.mem_cons_self⟩
    · obtain ⟨p, hp⟩ := ih (some u.id) h
      exact ⟨p, List.mem_cons_of_mem _ hp⟩

theorem linkRows_first (prev : Int) (vs : List Site) :
    (linkRows si spi (some prev) vs).filter (·.prevVnfId.isNone) = [] := by
  induction vs generalizing prev with
  | nil => rfl
  | cons v vs ih => simpa [linkRows] using ih v.id

end Rows

namespace Listed

variable {db : Db} {spi : Int} {si : List Site → Int} {vs : List Site}

theorem selectVnfIds_length (h : Listed db spi si vs) :
    (db.selectVnfIds (some spi)).length = vs.length := by
  rw [Db.selectVnfIds, List.length_map, h.rows.length_eq, linkRows_length]

theorem first {v : Site} {rest : List Site} (h : Listed db spi si (v :: rest)) :
    (db.selectFirstVnfId (some spi)).head? = some v.id := by
  have hperm := (h.rows.filter (·.prevVnfId.isNone)).map (·.vnfId)
  rw [linkRows, List.filter_cons_of_pos rfl, linkRows_first] at hperm
  rw [Db.selectFirstVnfId, List.perm_singleton.mp hperm]
  rfl

theorem row (h : Listed db spi si vs) {v : Site} {rest : List Site} (hsuf : v :: rest <:+ vs) :
    ∃ p, (db.serviceRows (some spi)).filter (·.vnfId = v.id) =
      [⟨spi, p, v.id, rest.head?.map Site.id, si (v :: rest)⟩] := by
  obtain ⟨p, hp⟩ : ∃ p, ⟨spi, p, v.id, rest.head?.map Site.id, si (v :: rest)⟩ ∈
      linkRows si spi none vs := mem_linkRows none hsuf
  refine ⟨p, ?_⟩
  have hnodup : ((db.serviceRows (some spi)).map (·.vnfId)).Nodup := by
    rw [(h.rows.map _).nodup_iff, linkRows_vnfId]
    exact h.ids
  have hmem := h.rows.mem_iff.mpr hp
  generalize db.serviceRows (some spi) = rows at hnodup hmem
  induction rows with
  | nil => simp at hmem
  | cons r rows ih =>
    obtain ⟨hr, hnodup⟩ := List.nodup_cons.mp hnodup
    rcases List.mem_cons.mp hmem with rfl | hmem
    · have hrows : ∀ r' ∈ rows, r'.vnfId ≠ v.id :=
        fun r' hr' he ↦ hr (List.mem_map.mpr ⟨r', hr', he⟩)
      simpa using hrows
    · have hne : r.vnfId ≠ v.id := fun he ↦ hr (List.mem_map.mpr ⟨_, hmem, he.symm⟩)
      rw [List.filter_cons_of_neg (by simpa using hne)]
      exact ih hnodup hmem

theorem next (h : Listed db spi si vs) {v : Site} {rest : List Site} (hsuf : v :: rest <:+ vs) :
    (db.selectNextVnfId (some spi) v.id).head? = some (rest.head?.map Site.id) := by
  obtain ⟨p, hp⟩ := h.row hsuf
  rw [Db.selectNextVnfId, hp]
  rfl

theorem serviceIndex (h : Listed db spi si vs) {v : Site} {rest : List Site}
    (hsuf : v :: rest <:+ vs) :
    (db.selectServiceIndex (some spi) v.id).head? = some (si (v :: rest)) := by
  obtain ⟨p, hp⟩ := h.row hsuf
  rw [Db.selectServiceIndex, hp]
  rfl

end Listed

section Rules

variable (row : FlowRow) (spi : Int) (m : Int → OFPMatch) (ethSrc : String)

def finishRules (u : Site) : List Message :=
  [(u.dp, .add 1 8 (matchSpiSi spi 0) (flowInstructions [.decap, .decap] (some row.id) (some 3))),
   (u.dp, .add 1 6 (matchHop u.loc spi 1)
     (flowInstructions [.decap, .decap, .output (.phys u.port)] (some row.id) none))]

def steerRules (u : Site) (last : Int) (v : Site) (current : Int) : List Message :=
  [(u.dp, .add 1 8 (matchSpiSi spi current)
     (flowInstructions [.setField .ethDst (.str v.loc)] (some row.id) (some 3))),
   (u.dp, .add 0 6 (m u.port)
     (flowInstructions (encapActions spi current v.loc ethSrc) (some row.id) (some 3))),
   (u.dp, .add 1 6 (matchHop u.loc spi last)
     (flowInstructions [.decap, .decap, .output (.phys v.port)] (some row.id) none))]

/-- The flow-mods of the loop from `u` on, with the VNFs that are left. A VNF that is not
bidirectional is passed over, and the id 0 ends the loop. -/
def linkRules (bidir : Site → Bool) (si : List Site → Int) (u : Site) (last : Int) :
    List Site → List Message
  | [] => finishRules row spi u
  | v :: rest =>
    if v.id = 0 then finishRules row spi u
    else if bidir v then
      steerRules row spi m ethSrc u last v (si (v :: rest)) ++
        linkRules bidir si v (si (v :: rest)) rest
    else linkRules bidir si u last rest

/-- The loop from `u` on. It stops at a VNF whose switch is not connected. -/
def linkRun (conn bidir : Site → Bool) (si : List Site → Int) (u : Site) (last : Int) :
    List Site → Ctl Unit
  | [] => if conn u then ⟨finishRules row spi u, .ok ()⟩ else .raise (.raised .keyError)
  | v :: rest =>
    if conn u then
      if v.id = 0 then ⟨finishRules row spi u, .ok ()⟩
      else if bidir v then
        let run := linkRun conn bidir si v (si (v :: rest)) rest
        ⟨steerRules row spi m ethSrc u last v (si (v :: rest)) ++ run.sent, run.result⟩
      else linkRun conn bidir si u last rest
    else .raise (.raised .keyError)

theorem linkRun_of_not_connected {conn bidir : Site → Bool} {si : List Site → Int} {u : Site}
    (hu : ¬ conn u) (last : Int) (rest : List Site) :
    linkRun row spi m ethSrc conn bidir si u last rest = .raise (.raised .keyError) := by
  cases rest <;> rw [linkRun, if_neg hu]

theorem linkRun_of_connected {conn bidir : Site → Bool} {si : List Site → Int} {u : Site}
    (last : Int) {rest : List Site} (hconn : ∀ v ∈ u :: rest, conn v) :
    linkRun row spi m ethSrc conn bidir si u last rest =
      ⟨linkRules row spi m ethSrc bidir si u last rest, .ok ()⟩ := by
  induction rest generalizing u last with
  | nil => rw [linkRun, if_pos (hconn u List.mem_cons_self), linkRules]
  | cons v rest ih =>
    obtain ⟨hu, hrest⟩ := List.forall_mem_cons.mp hconn
    rw [linkRun, if_pos hu, linkRules]
    split_ifs with hzero hb
    · rfl
    · simp only [ih _ hrest]
    · exact ih last (List.forall_mem_cons.mpr ⟨hu, (List.forall_mem_cons.mp hrest).2⟩)

end Rules

section Walk

variable {app : SfcApp} {db : Db} {spi : Int} {si : List Site → Int} {vs : List Site} {flowId : ℕ}
  {row : FlowRow} {m : Int → OFPMatch} {ethSrc : String}

def walkAt (row : FlowRow) (x u : Site) (last : Int) : Walk :=
  ⟨x.id, some u.dp.id, some u.port, last, u.loc, row⟩

theorem steer_eq (h : Listed db spi si vs) {c : OFPMatch} (hc : Matched db flowId row c)
    (hspi : row.serviceId = some spi) (hm : ∀ p, matchMiddle (some p) row = .ok (m p))
    {x u v : Site} {rest : List Site} (hsuf : v :: rest <:+ vs) (hk : Known db v)
    (hb : bidirectional db v) (last : Int) :
    steer db flowId ethSrc u.dp (walkAt row x u last) v.id =
      ⟨steerRules row spi m ethSrc u last v (si (v :: rest)),
        .ok (walkAt row v v (si (v :: rest)))⟩ := by
  have hv := hk.locator hb
  have hadd : ∀ {e : OFPMatch}, e.packs → _ := fun he ↦ addFlow_matched hc he u.dp
  have hmiddle := hadd (matchMiddle_packs hc.common (hm u.port) hc.packs)
  obtain ⟨r, hr, hrow⟩ := hc.head
  simp only [steer, walkAt, fetchone_eq hv, Script.pure_bind, hspi, intOfColumn,
    fetchone_eq (h.serviceIndex hsuf), py_ok, textOfColumn, fetchone_eq hr, hrow, hm, hmiddle,
    hadd (e := matchSpiSi _ _) rfl, hadd (e := matchHop _ _ _) rfl]
  refine Script.ext ?_ ?_
  · simp [steerRules]
  · simp

theorem finish_eq {c : OFPMatch} (hc : Matched db flowId row c) (hspi : row.serviceId = some spi)
    (x u : Site) (last : Int) :
    finish u.dp (walkAt row x u last) = ⟨finishRules row spi u, .ok ()⟩ := by
  simp only [finish, walkAt, hspi, intOfColumn, py_ok, Script.pure_bind,
    addFlow_matched hc (e := matchSpiSi _ _) rfl, addFlow_matched hc (e := matchHop _ _ _) rfl]
  rfl

def connected (app : SfcApp) (v : Site) : Bool := app.connected (some v.dp.id)

def Attached (app : SfcApp) (v : Site) : Prop :=
  v.dp ∈ app.datapaths ∨ ∀ dp ∈ app.datapaths, dp.id ≠ v.dp.id

theorem connected_of_mem {v : Site} (h : v.dp ∈ app.datapaths) : connected app v :=
  List.any_eq_true.mpr ⟨v.dp, h, by simp⟩

theorem Attached.mem {v : Site} (h : Attached app v) (hv : connected app v) : v.dp ∈ app.datapaths := by
  obtain ⟨dp, hdp, hid⟩ := List.any_eq_true.mp hv
  exact h.resolve_right fun hnone ↦ hnone dp hdp (by simpa using hid)

theorem Attached.connected_iff {v : Site} (h : Attached app v) :
    connected app v ↔ v.dp ∈ app.datapaths := ⟨h.mem, connected_of_mem⟩

theorem walk_of_not_connected {x u : Site} (hu : ¬ connected app u) (last : Int) (fuel : ℕ) :
    walk app db flowId ethSrc (fuel + 1) (walkAt row x u last) = .raise (.raised .keyError) := by
  have hnone : ∀ dp ∈ app.datapaths, ¬ dp.id = u.dp.id := by
    intro dp hdp hid
    exact hu (List.any_eq_true.mpr ⟨dp, hdp, by simpa using hid⟩)
  have hdp : app.datapath (some u.dp.id) = .raise (.raised .keyError) := by
    rw [SfcApp.datapath, List.find?_eq_none.mpr fun dp hdp ↦ by simpa using hnone dp hdp]
  rw [walk, hop, walkAt, hdp, raise_bind, raise_bind]

/-- From a VNF on, the loop installs rules until it ends or comes to a switch that is not
connected. -/
theorem walk_run (h : Listed db spi si vs) (hknown : ∀ v ∈ vs, Known db v)
    (hattached : ∀ v ∈ vs, Attached app v) {c : OFPMatch} (hc : Matched db flowId row c)
    (hspi : row.serviceId = some spi) (hm : ∀ p, matchMiddle (some p) row = .ok (m p)) {x u : Site}
    {rest : List Site} (hsuf : x :: rest <:+ vs) (hu : u ∈ vs) (last : Int) {fuel : ℕ}
    (hfuel : rest.length < fuel) :
    walk app db flowId ethSrc fuel (walkAt row x u last) =
      linkRun row spi m ethSrc (connected app) (bidirectional db) si u last rest := by
  induction rest generalizing x u last fuel with
  | nil =>
    cases fuel with
    | zero => omega
    | succ fuel =>
      by_cases hconn : connected app u
      swap
      · rw [walk_of_not_connected hconn, linkRun_of_not_connected _ _ _ _ hconn]
      have hnext := h.next hsuf
      rw [← hspi] at hnext
      rw [walk, hop_finish (datapath_of_mem ((hattached u hu).mem hconn)) hnext rfl,
        finish_eq hc hspi, bind_of_ok rfl, bind_of_ok rfl, linkRun, if_pos hconn]
      simp
  | cons v rest ih =>
    cases fuel with
    | zero => omega
    | succ fuel =>
      by_cases hconn : connected app u
      swap
      · rw [walk_of_not_connected hconn, linkRun_of_not_connected _ _ _ _ hconn]
      have hsuf' : v :: rest <:+ vs := (List.suffix_cons x _).trans hsuf
      have hv : v ∈ vs := hsuf'.subset List.mem_cons_self
      have hdp := datapath_of_mem ((hattached u hu).mem hconn)
      have hnext := h.next hsuf
      rw [← hspi] at hnext
      have hlen : rest.length < fuel := by simpa using hfuel
      rw [walk, linkRun, if_pos hconn]
      by_cases hzero : v.id = 0
      · have hn : (some v.id).filter truthy = none := by simp [hzero]
        rw [if_pos hzero, hop_finish hdp hnext hn, finish_eq hc hspi, bind_of_ok rfl, bind_of_ok rfl]
        simp
      have hn : (some v.id).filter truthy = some v.id := by simp [hzero]
      rw [if_neg hzero]
      by_cases hb : bidirectional db v
      · have htrue := bidirectional_iff.mp hb
        rw [if_pos hb, hop_steer hdp hnext hn htrue, steer_eq h hc hspi hm hsuf' (hknown v hv) hb,
          bind_of_ok rfl, bind_of_ok rfl]
        simp [ih hsuf' hv (si (v :: rest)) hlen]
      · obtain ⟨b, hsel, hne⟩ := (hknown v hv).not_bidirectional hb
        rw [if_neg hb, hop_skip hdp hnext hn hsel hne, Script.pure_bind]
        exact ih hsuf' hu last hlen

theorem firstVnf_eq {v : Site} {rest : List Site} (h : Listed db spi si (v :: rest))
    (hknown : Known db v) (hb : bidirectional db v) (msg : PacketIn) :
    (firstVnf db msg (some spi)).result = .ok (v.id, some v.loc, some v.dp.id, some v.port) := by
  have htrue := bidirectional_iff.mp hb
  simp only [firstVnf, fetchone_eq h.first, Script.pure_bind, fetchone_eq htrue, if_true,
    fetchone_eq (hknown.locator hb), pure_result]

theorem install_run {v : Site} {rest : List Site} (h : Listed db spi si (v :: rest))
    (hknown : ∀ u ∈ v :: rest, Known db u) (hattached : ∀ u ∈ v :: rest, Attached app u)
    (hb : bidirectional db v) {msg : PacketIn} {c : OFPMatch} (hc : Matched db flowId row c)
    (hspi : row.serviceId = some spi) (hm : ∀ p, matchMiddle (some p) row = .ok (m p))
    {entry : OFPMatch} (hentry : matchEntryPoint msg.inPort row = .ok entry) {fuel : ℕ}
    (hfuel : rest.length < fuel) :
    let run := linkRun row spi m msg.packet.ethSrc (connected app) (bidirectional db) si v
      (rest.length + 1) rest
    install fuel app db msg flowId row entry =
      ⟨sourceMod msg spi entry (rest.length + 1) v.loc :: run.sent, run.result⟩ := by
  have hwalk : walk app db flowId msg.packet.ethSrc fuel (walkAt row v v (rest.length + 1)) =
      linkRun row spi m msg.packet.ethSrc (connected app) (bidirectional db) si v
        (rest.length + 1) rest :=
    walk_run h hknown hattached hc hspi hm (List.suffix_refl _) List.mem_cons_self _ hfuel
  have hlen := h.selectVnfIds_length
  have hfirst := firstVnf_eq h (hknown v List.mem_cons_self) hb msg
  rw [install_eq hspi (hspi ▸ hfirst), hspi, hlen, List.length_cons, Nat.cast_succ]
  rw [walkAt] at hwalk
  have hp : entry.packs := (matchEntryPoint_packs hc.common hentry).mpr hc.packs
  rw [hwalk, addFlow_of_packs hp (by simp), bind_of_ok rfl]
  simp [sourceMod]

theorem handler_eq {v : Site} {rest : List Site} (h : Listed db spi si (v :: rest))
    (hknown : ∀ u ∈ v :: rest, Known db u) (hconn : ∀ u ∈ v :: rest, u.dp ∈ app.datapaths)
    (hb : bidirectional db v) {msg : PacketIn} (hof : OfFlow app flowId msg) {c : OFPMatch}
    (hc : Matched db flowId row c) (hspi : row.serviceId = some spi)
    (hm : ∀ p, matchMiddle (some p) row = .ok (m p)) {entry : OFPMatch}
    (hentry : matchEntryPoint msg.inPort row = .ok entry) {fuel : ℕ} (hfuel : rest.length < fuel) :
    packetInHandler fuel app db msg =
      ⟨deletions app c ++ sourceMod msg spi entry (rest.length + 1) v.loc ::
        linkRules row spi m msg.packet.ethSrc (bidirectional db) si v (rest.length + 1) rest,
        .ok db⟩ := by
  have hinstall : install fuel app db msg flowId row entry =
      ⟨sourceMod msg spi entry (rest.length + 1) v.loc ::
        linkRules row spi m msg.packet.ethSrc (bidirectional db) si v (rest.length + 1) rest,
        .ok ()⟩ := by
    have hall : ∀ u ∈ v :: rest, connected app u :=
      fun u hu ↦ connected_of_mem (hconn u hu)
    rw [install_run h hknown (fun u hu ↦ .inl (hconn u hu)) hb hc hspi hm hentry hfuel,
      linkRun_of_connected _ _ _ _ _ hall]
  obtain ⟨r, hr, rfl⟩ := hc.head
  have hact := activate_eq hof hr hentry hc.common hc.packs fuel
  rw [hinstall] at hact
  rw [handler_of_not_registration hof.notRegistration, hact, bind_of_ok rfl]
  simp [deletions]

end Walk

end NshSfc.Linked
