import NshSfc.Python

namespace NshSfc.Database

open Python

structure FlowRow where
  id : Int
  name : Option String
  ethDst : Option String
  ethSrc : Option String
  ethType : Option Int
  ipProto : Option Int
  ipv4Src : Option String
  ipv4Dst : Option String
  tcpSrc : Option Int
  tcpDst : Option Int
  udpSrc : Option Int
  udpDst : Option Int
  ipv6Src : Option String
  ipv6Dst : Option String
  serviceId : Option Int
deriving DecidableEq

/-- A row of the table `service`: one VNF of a chain with its neighbours. -/
structure ServiceRow where
  serviceId : Int
  prevVnfId : Option Int
  vnfId : Int
  nextVnfId : Option Int
  serviceIndex : Int
deriving DecidableEq

structure VnfRow where
  id : Int
  name : Option String
  typeId : Option Int
  groupId : Option Int
  geoLocation : Option String
  iftype : Option Int
  bidirectional : Option String
  dpid : Option Int
  inPort : Option Int
  locatorAddr : Option String
deriving DecidableEq

/-- The unique key of the table `vnf`: as in `nfv.sqlite`, on id and interface type, on the id
alone, or none. -/
inductive UniqueKey
  | nfvSqlite
  | idIftype
  | id
  | none
deriving DecidableEq, Repr

/-- The tables of `nfv.sqlite`, each as the list of its rows in the order in which
a select returns them. `flows.id` is the primary key. -/
structure Db where
  flows : List FlowRow
  flows_id : (flows.map FlowRow.id).Nodup
  service : List ServiceRow
  vnf : List VnfRow
  key : UniqueKey := .nfvSqlite

namespace Db

variable (db : Db)

-- select * from flows where id = ?
def selectFlows (id : Int) : List FlowRow := db.flows.filter fun r ↦ r.id = id

def serviceRows (serviceId : Option Int) : List ServiceRow :=
  db.service.filter fun r ↦ some r.serviceId = serviceId

-- select vnf_id from service where service_id = ?
def selectVnfIds (serviceId : Option Int) : List Int := (db.serviceRows serviceId).map (·.vnfId)

-- select vnf_id from service where service_id = ? and prev_vnf_id is NULL
def selectFirstVnfId (serviceId : Option Int) : List Int :=
  ((db.serviceRows serviceId).filter (·.prevVnfId.isNone)).map (·.vnfId)

-- select next_vnf_id from service where service_id = ? and vnf_id = ?
def selectNextVnfId (serviceId : Option Int) (vnfId : Int) : List (Option Int) :=
  ((db.serviceRows serviceId).filter (·.vnfId = vnfId)).map (·.nextVnfId)

-- select service_index from service where service_id = ? and vnf_id = ?
def selectServiceIndex (serviceId : Option Int) (vnfId : Int) : List Int :=
  ((db.serviceRows serviceId).filter (·.vnfId = vnfId)).map (·.serviceIndex)

-- select bidirectional from vnf where id=?
def selectBidirectional (vnfId : Int) : List (Option String) :=
  (db.vnf.filter (·.id = vnfId)).map (·.bidirectional)

-- select locator_addr, dpid, in_port from vnf where id=? and iftype == 3
def selectLocator (vnfId : Int) : List (Option String × Option Int × Option Int) :=
  (db.vnf.filter fun r ↦ r.id = vnfId ∧ r.iftype = some 3).map
    fun r ↦ (r.locatorAddr, r.dpid, r.inPort)

end Db

-- NULLs never collide
def UniqueKey.collides (key : UniqueKey) (row r : VnfRow) : Bool :=
  match key with
  | .nfvSqlite => row.iftype.isSome ∧ r.iftype = row.iftype ∧
      (r.id = row.id ∨ (row.name.isSome ∧ r.name = row.name))
  | .idIftype => row.iftype.isSome ∧ r.iftype = row.iftype ∧ r.id = row.id
  | .id => r.id = row.id
  | .none => false

theorem UniqueKey.eq_of_collides {key : UniqueKey} {row r : VnfRow} (h : key.collides row r) :
    r.id = row.id ∨ r.name = row.name := by
  cases key <;> simp_all [UniqueKey.collides]
  tauto

def nullsFirst : Option Int → Option Int → Bool
  | none, some _ => true
  | some i, some j => i < j
  | _, none => false

theorem nullsFirst_asymm {a b : Option Int} (h : nullsFirst a b) : ¬ nullsFirst b a := by
  cases a <;> cases b <;> simp_all [nullsFirst]
  omega

theorem nullsFirst_of_not {a b c : Option Int} (h : nullsFirst a b) (h' : ¬ nullsFirst c b) :
    nullsFirst a c := by
  cases a <;> cases b <;> cases c <;> simp_all [nullsFirst]
  omega

/-- A select on the id finds the new row before `r`: it follows the index on id and interface type,
if there is one. -/
def UniqueKey.precedes (key : UniqueKey) (row r : VnfRow) : Bool :=
  (key = .nfvSqlite ∨ key = .idIftype) ∧ r.id = row.id ∧ nullsFirst row.iftype r.iftype

def UniqueKey.insert (key : UniqueKey) (row : VnfRow) : List VnfRow → List VnfRow
  | [] => [row]
  | r :: rows => if key.precedes row r then row :: r :: rows else r :: key.insert row rows

namespace Db

variable (db : Db)

def insertVnf (row : VnfRow) : Db :=
  if db.vnf.any (db.key.collides row) then db else { db with vnf := db.key.insert row db.vnf }

variable {db}

theorem mem_selectFlows {id : Int} {row : FlowRow} :
    row ∈ db.selectFlows id ↔ row ∈ db.flows ∧ row.id = id := by simp [selectFlows]

theorem selectFlows_eq_singleton {row : FlowRow} (h : row ∈ db.flows) :
    db.selectFlows row.id = [row] := by
  have hnd := db.flows_id
  unfold selectFlows
  generalize db.flows = rows at h hnd
  induction rows with
  | nil => simp at h
  | cons r rows ih =>
    obtain ⟨hr, hnd⟩ := List.nodup_cons.mp hnd
    rcases List.mem_cons.mp h with rfl | h
    · have hrows : ∀ r' ∈ rows, r'.id ≠ row.id :=
        fun r' hr' he ↦ hr (List.mem_map.mpr ⟨r', hr', he⟩)
      simpa using hrows
    · have hne : r.id ≠ row.id := fun he ↦ hr (List.mem_map.mpr ⟨row, h, he.symm⟩)
      rw [List.filter_cons_of_neg (by simpa using hne)]
      exact ih h hnd

theorem insertVnf_flows (row : VnfRow) : (db.insertVnf row).flows = db.flows := by
  unfold insertVnf
  split <;> rfl

theorem insertVnf_service (row : VnfRow) : (db.insertVnf row).service = db.service := by
  unfold insertVnf
  split <;> rfl

theorem insertVnf_key (row : VnfRow) : (db.insertVnf row).key = db.key := by
  unfold insertVnf
  split <;> rfl

theorem insert_split (key : UniqueKey) (row : VnfRow) (rows : List VnfRow) :
    ∃ before after, rows = before ++ after ∧ key.insert row rows = before ++ row :: after := by
  induction rows with
  | nil => exact ⟨[], [], rfl, rfl⟩
  | cons r rows ih =>
    rw [UniqueKey.insert]
    split
    · exact ⟨[], r :: rows, rfl, rfl⟩
    · obtain ⟨before, after, hrows, hinsert⟩ := ih
      exact ⟨r :: before, after, by rw [hrows]; rfl, by rw [hinsert]; rfl⟩

theorem mem_insertVnf {r row : VnfRow} (h : r ∈ (db.insertVnf row).vnf) : r ∈ db.vnf ∨ r = row := by
  unfold insertVnf at h
  split at h
  · exact .inl h
  · obtain ⟨before, after, hrows, hinsert⟩ := insert_split db.key row db.vnf
    have h : r ∈ db.key.insert row db.vnf := h
    rw [hinsert] at h
    rw [hrows]
    simp only [List.mem_append, List.mem_cons] at h ⊢
    tauto

theorem find_insert (key : UniqueKey) (row : VnfRow) (rows : List VnfRow) (v : Int) :
    (key.insert row rows).find? (·.id = v) = rows.find? (·.id = v) ∨
      ((key.insert row rows).find? (·.id = v) = some row ∧ row.id = v ∧
        ∀ r, rows.find? (·.id = v) = some r → key.precedes row r) := by
  have hpos : ∀ {r : VnfRow} {l : List VnfRow}, r.id = v → (r :: l).find? (·.id = v) = some r :=
    fun h ↦ List.find?_cons_of_pos (by simpa using h)
  have hneg : ∀ {r : VnfRow} {l : List VnfRow}, r.id ≠ v →
      (r :: l).find? (·.id = v) = l.find? (·.id = v) :=
    fun h ↦ List.find?_cons_of_neg (by simpa using h)
  induction rows with
  | nil =>
    rw [UniqueKey.insert]
    by_cases hv : row.id = v
    · exact .inr ⟨hpos hv, hv, fun r hr ↦ by simp at hr⟩
    · exact .inl (hneg hv)
  | cons r rows ih =>
    rw [UniqueKey.insert]
    split
    case isTrue hbefore =>
      have hid : r.id = row.id := by
        rw [UniqueKey.precedes, decide_eq_true_iff] at hbefore
        exact hbefore.2.1
      by_cases hv : row.id = v
      · refine .inr ⟨hpos hv, hv, fun r' hr' ↦ ?_⟩
        obtain rfl : r = r' := Option.some.inj ((hpos (hid.trans hv)).symm.trans hr')
        exact hbefore
      · exact .inl (hneg hv)
    case isFalse =>
      by_cases hv : r.id = v
      · exact .inl ((hpos hv).trans (hpos hv).symm)
      · rw [hneg hv, hneg hv]
        exact ih

theorem insert_none (row : VnfRow) (rows : List VnfRow) :
    UniqueKey.none.insert row rows = rows ++ [row] := by
  induction rows with
  | nil => rfl
  | cons r rows ih =>
    rw [UniqueKey.insert, if_neg (by simp [UniqueKey.precedes]), ih]
    rfl

theorem selectBidirectional_head (v : Int) : (db.selectBidirectional v).head? =
    (db.vnf.find? (·.id = v)).map (·.bidirectional) := by
  rw [selectBidirectional, List.head?_map, List.head?_filter]

theorem selectLocator_insertVnf (row : VnfRow) (v : Int) :
    (db.insertVnf row).selectLocator v = db.selectLocator v ++
      if ¬ db.vnf.any (db.key.collides row) ∧ row.id = v ∧ row.iftype = some 3 then
        [(row.locatorAddr, row.dpid, row.inPort)] else [] := by
  unfold insertVnf
  by_cases hany : db.vnf.any (db.key.collides row)
  · rw [if_pos hany, if_neg fun h ↦ h.1 hany, List.append_nil]
  rw [if_neg hany]
  obtain ⟨before, after, hrows, hinsert⟩ := insert_split db.key row db.vnf
  let p : VnfRow → Bool := fun r ↦ r.id = v ∧ r.iftype = some 3
  simp only [selectLocator]
  by_cases hrow : row.id = v ∧ row.iftype = some 3
  swap
  · have hp : ¬ p row := by simpa [p] using hrow
    rw [if_neg fun h ↦ hrow h.2, List.append_nil, hinsert, hrows, List.filter_append,
      List.filter_append, List.filter_cons_of_neg hp]
  have hp : p row := by simpa [p] using hrow
  rw [if_pos ⟨hany, hrow⟩]
  by_cases hkey : db.key = .none
  · rw [hkey, insert_none, List.filter_append, List.map_append, List.filter_cons_of_pos hp]
    rfl
  · -- with a key, a row with the same id and type would have kept the new one out
    have hnone : db.vnf.filter p = [] := by
      refine List.filter_eq_nil_iff.mpr fun r hr hat ↦ hany (List.any_eq_true.mpr ⟨r, hr, ?_⟩)
      obtain ⟨hid, hthree⟩ := of_decide_eq_true hat
      cases hk : db.key <;> simp_all [UniqueKey.collides]
    have hsplit := hnone
    rw [hrows, List.filter_append, List.append_eq_nil_iff] at hsplit
    rw [hinsert, List.filter_append, List.filter_cons_of_pos hp, hsplit.1, hsplit.2, hnone]
    rfl

end Db

def Earlier (db db' : Db) : Prop := ∃ rows : List VnfRow, db' = rows.foldl Db.insertVnf db

theorem Earlier.refl (db : Db) : Earlier db db := ⟨[], rfl⟩

theorem Earlier.insertVnf (db : Db) (row : VnfRow) : Earlier db (db.insertVnf row) := ⟨[row], rfl⟩

section Earlier

variable {db db' db'' : Db}

theorem Earlier.trans (h : Earlier db db') (h' : Earlier db' db'') : Earlier db db'' := by
  obtain ⟨rows, rfl⟩ := h
  obtain ⟨rows', rfl⟩ := h'
  exact ⟨rows ++ rows', by rw [List.foldl_append]⟩

theorem Earlier.kept {α : Type} {f : Db → α} (hf : ∀ db row, f (db.insertVnf row) = f db)
    (h : Earlier db db') : f db' = f db := by
  obtain ⟨rows, rfl⟩ := h
  induction rows generalizing db with
  | nil => rfl
  | cons row rows ih => exact ih.trans (hf db row)

theorem Earlier.flows (h : Earlier db db') : db'.flows = db.flows :=
  h.kept fun _ ↦ Db.insertVnf_flows

theorem Earlier.service (h : Earlier db db') : db'.service = db.service :=
  h.kept fun _ ↦ Db.insertVnf_service

theorem Earlier.key (h : Earlier db db') : db'.key = db.key := h.kept fun _ ↦ Db.insertVnf_key

theorem Earlier.selectFlows (h : Earlier db db') (id : Int) :
    db'.selectFlows id = db.selectFlows id := by
  rw [Db.selectFlows, h.flows, Db.selectFlows]

end Earlier

end NshSfc.Database
