import NshSfc.Decoding
import NshSfc.Transit

namespace NshSfc.Deployment

open Library Library.Script Python Allocation Indexing Program Decoding Agent Transit

structure Globals where
  vnfName : List (List Text)
  vnfId : List (List Text)
  typeId : Text
  groupId : Text
  iftype : Text

abbrev Sending (α : Type) := Script (Text × ByteArray) PyError α

/-- The address of the host of a node. The nodes are counted from 0 here, their names from 1. -/
def address (n : ℕ) : Text := "10.0.0.".toList ++ (numeral n).toList

def ip (nodes : ℕ) : List Text := (List.range nodes).map address

def entry {α : Type} (rows : List (List α)) (r k : ℕ) : Except PyError α := do
  getItem (← getItem rows r) k

section Script

variable (g : Globals) (nodes : ℕ) (Kr : List ℕ)

/-- The body of the two loops at the end of the script. The cell of a VNF without a node is still
`[]`, which `int` does not take. -/
def sendVnf (res : Cells) (r k : ℕ) : Sending Unit := do
  let loc ← .lift (entry res r k >>= intOfColumn)
  let addr ← .lift (getItem (ip nodes) loc)
  let name ← .lift (entry g.vnfName r k)
  let vnfId ← .lift (entry g.vnfId r k)
  let msg ← .lift (sendCom name vnfId g.typeId g.groupId g.iftype)
  .send (addr, msg)

/-- The script from the solution of the program on. PuLP lists the variables as in `vars`. -/
def deploy (v : LpVariable → Int) (vars : List LpVariable) : Sending Unit := do
  let res ← .lift (decode v Kr vars)
  .forEach (fun r ↦ .forEach (sendVnf g nodes res r) (List.range (size Kr r))) (List.range Kr.length)

structure Globals.Vnf (r k : ℕ) (name vnfId : Text) : Prop where
  name : entry g.vnfName r k = .ok name
  vnfId : entry g.vnfId r k = .ok vnfId

def Globals.datagram (name vnfId : Text) : ByteArray :=
  encode (comMsg name vnfId g.typeId g.groupId g.iftype)

structure Requested (r k : ℕ) (name vnfId : Text) : Prop extends g.Vnf r k name vnfId where
  request : r < Kr.length
  index : k < size Kr r

def Readable : Prop :=
  ∀ r k name vnfId, Requested g Kr r k name vnfId → Clean name vnfId g.typeId g.groupId g.iftype

end Script

section Addresses

variable {nodes n m : ℕ}

theorem address_inj (h : address n = address m) : n = m :=
  numeral_inj (String.toList_inj.mp (List.append_cancel_left h))

theorem getItem_ip (hn : n < nodes) : getItem (ip nodes) n = .ok (address n) := by
  rw [getItem_natCast (by simpa [ip] using hn)]
  simp [ip]

end Addresses

section Sent

variable {g : Globals} {nodes : ℕ} {Kr : List ℕ} {v : LpVariable → Int} {vars : List LpVariable}
  {P : Placement nodes Kr.length (size Kr)} {r k : ℕ} {name vnfId addr : Text} {msg : ByteArray}

theorem entry_cells (hr : r < Kr.length) (hk : k < size Kr r) :
    entry (cells P) r k = .ok (some (P.bin r k : Int)) := by
  have hrow : getItem (cells P) r = .ok ((List.range (size Kr r)).map fun k ↦ some (P.bin r k : Int)) := by
    rw [getItem_natCast (by simpa [cells, table] using hr)]
    simp [cells, table]
  rw [entry, hrow, ok_bind, getItem_natCast (by simpa using hk)]
  simp

theorem sendVnf_eq (hr : r < Kr.length) (hk : k < size Kr r) :
    sendVnf g nodes (cells P) r k = (do
      let name ← .lift (entry g.vnfName r k)
      let vnfId ← .lift (entry g.vnfId r k)
      let msg ← .lift (sendCom name vnfId g.typeId g.groupId g.iftype)
      .send (address (P.bin r k), msg)) := by
  rw [sendVnf, entry_cells hr hk, ok_bind, intOfColumn, bind_of_ok rfl, getItem_ip (P.bin_lt r hr k hk),
    bind_of_ok rfl]
  rfl

theorem deploy_eq (hv : Indicates v P) (hvars : ∀ x, x ∈ vars ↔ x ∈ (program nodes Kr).variables) :
    deploy g nodes Kr v vars = .forEach (fun r ↦ .forEach (sendVnf g nodes (cells P) r)
      (List.range (size Kr r))) (List.range Kr.length) := by
  rw [deploy, decode_eq hv hvars, bind_of_ok rfl]
  rfl

theorem deploy_ensures (hv : Indicates v P)
    (hvars : ∀ x, x ∈ vars ↔ x ∈ (program nodes Kr).variables) :
    Ensures (fun d : Text × ByteArray ↦ ∃ r k name vnfId, Requested g Kr r k name vnfId ∧
      d = (address (P.bin r k), g.datagram name vnfId)) (deploy g nodes Kr v vars) fun _ ↦ True := by
  rw [deploy_eq hv hvars]
  refine .forEach fun r hr ↦ .forEach fun k hk ↦ ?_
  have hr := List.mem_range.mp hr
  have hk := List.mem_range.mp hk
  rw [sendVnf_eq hr hk]
  refine .bind (.lift fun name hname ↦ hname) fun name _ hname ↦ ?_
  refine .bind (.lift fun vnfId hid ↦ hid) fun vnfId _ hid ↦ ?_
  refine .bind (.lift fun msg hmsg ↦ hmsg) fun msg _ hmsg ↦ ?_
  refine .send ⟨r, k, name, vnfId, ⟨⟨hname, hid⟩, hr, hk⟩, ?_⟩
  unfold sendCom at hmsg
  dsimp only at hmsg
  split at hmsg
  · rw [← Except.ok.inj hmsg, Globals.datagram]
  · cases hmsg

theorem sendCom_of_clean (h : Clean name vnfId g.typeId g.groupId g.iftype) :
    sendCom name vnfId g.typeId g.groupId g.iftype = .ok (g.datagram name vnfId) := by
  have hsize : (g.datagram name vnfId).size ≤ bufferSize + 2 :=
    h.fits.elim (fun hle ↦ hle.trans (Nat.le_add_right _ _)) fun heq ↦ heq.le
  exact if_pos (hsize.trans (by decide))

theorem deploy_complete (hv : Indicates v P)
    (hvars : ∀ x, x ∈ vars ↔ x ∈ (program nodes Kr).variables)
    (hall : ∀ r < Kr.length, ∀ k < size Kr r, ∃ name vnfId, g.Vnf r k name vnfId)
    (hclean : Readable g Kr) : (deploy g nodes Kr v vars).result = .ok () ∧
      ∀ r k name vnfId, Requested g Kr r k name vnfId →
        (address (P.bin r k), g.datagram name vnfId) ∈ (deploy g nodes Kr v vars).sent := by
  have hsend : ∀ r k name vnfId, Requested g Kr r k name vnfId →
      sendVnf g nodes (cells P) r k = .send (address (P.bin r k), g.datagram name vnfId) := by
    intro r k name vnfId h
    rw [sendVnf_eq h.request h.index, h.name, bind_of_ok rfl, h.vnfId, bind_of_ok rfl,
      sendCom_of_clean (hclean r k name vnfId h), bind_of_ok rfl]
    rfl
  have hinner : ∀ r ∈ List.range Kr.length, forEach (sendVnf g nodes (cells P) r)
      (List.range (size Kr r)) =
        ⟨(List.range (size Kr r)).flatMap fun k ↦ (sendVnf g nodes (cells P) r k).sent, .ok ()⟩ := by
    intro r hr
    have hr := List.mem_range.mp hr
    refine forEach_of_ok _ fun k hk ↦ ?_
    have hk := List.mem_range.mp hk
    obtain ⟨name, vnfId, h⟩ := hall r hr k hk
    rw [hsend r k name vnfId ⟨h, hr, hk⟩]
    rfl
  rw [deploy_eq hv hvars, forEach_of_ok _ fun r hr ↦ by rw [hinner r hr]]
  refine ⟨rfl, fun r k name vnfId h ↦ ?_⟩
  have hr := List.mem_range.mpr h.request
  refine List.mem_flatMap.mpr ⟨r, hr, ?_⟩
  rw [hinner r hr]
  refine List.mem_flatMap.mpr ⟨k, List.mem_range.mpr h.index, ?_⟩
  rw [hsend r k name vnfId h]
  exact List.mem_cons_self

end Sent

section Agents

variable {g : Globals} {nodes : ℕ} {Kr : List ℕ} {v : LpVariable → Int} {vars : List LpVariable}
  {P : Placement nodes Kr.length (size Kr)} {n : ℕ} {datagrams : List ByteArray} {m : RegisterDict}

/-- What reaches the agent of node `n`: datagrams of the script, in any order. Some may be lost, and
some may come more than once. -/
def Reach (sent : List (Text × ByteArray)) (n : ℕ) (datagrams : List ByteArray) : Prop :=
  ∀ datagram ∈ datagrams, (address n, datagram) ∈ sent

def Announces (g : Globals) (P : Placement nodes Kr.length (size Kr)) (n : ℕ) (datagram : ByteArray)
    (m : RegisterDict) : Prop :=
  ∃ r k, Requested g Kr r k m.name m.vnfId ∧ P.bin r k = n ∧
    datagram = g.datagram m.name m.vnfId ∧ m.typeId = g.typeId ∧ m.groupId = g.groupId ∧
    m.geoLocation = ogeoLocation ∧ m.iftype = g.iftype ∧ obidirectional g.iftype = .ok m.bidirectional

theorem announces_of_heard (hv : Indicates v P)
    (hvars : ∀ x, x ∈ vars ↔ x ∈ (program nodes Kr).variables) (hclean : Readable g Kr)
    {datagram : ByteArray} (hsent : (address n, datagram) ∈ (deploy g nodes Kr v vars).sent)
    (hm : Heard datagram m) : Announces g P n datagram m := by
  obtain ⟨r, k, name, vnfId, hreq, heq⟩ := (deploy_ensures hv hvars).sent _ hsent
  obtain ⟨haddr, rfl⟩ := Prod.mk.inj heq
  obtain ⟨heq, hb⟩ := (hclean r k name vnfId hreq).heard_eq hm
  rw [heq]
  exact ⟨r, k, hreq, (address_inj haddr).symm, rfl, rfl, rfl, rfl, rfl, hb⟩

theorem announces_of_sent (hv : Indicates v P)
    (hvars : ∀ x, x ∈ vars ↔ x ∈ (program nodes Kr).variables) (hclean : Readable g Kr)
    (hreach : Reach (deploy g nodes Kr v vars).sent n datagrams) (hm : m ∈ (recv datagrams).sent) :
    ∃ datagram ∈ datagrams, Announces g P n datagram m := by
  induction datagrams with
  | nil => cases hm
  | cons datagram datagrams ih =>
    obtain ⟨hsent, hreach⟩ := List.forall_mem_cons.mp hreach
    by_cases hheard : ∃ m, Heard datagram m
    · obtain ⟨m', hm'⟩ := hheard
      rw [recv_of_heard hm'] at hm
      rcases List.mem_cons.mp hm with rfl | hm
      · exact ⟨_, List.mem_cons_self, announces_of_heard hv hvars hclean hsent hm'⟩
      · obtain ⟨d, hd, h⟩ := ih hreach hm
        exact ⟨d, List.mem_cons_of_mem _ hd, h⟩
    · rw [(recv_of_not_heard (not_exists.mp hheard) datagrams).1] at hm
      cases hm

theorem agent_answers {b : Text} (hv : Indicates v P)
    (hvars : ∀ x, x ∈ vars ↔ x ∈ (program nodes Kr).variables) (hclean : Readable g Kr)
    (hb : obidirectional g.iftype = .ok b)
    (hreach : Reach (deploy g nodes Kr v vars).sent n datagrams) :
    List.Forall₂ (Announces g P n) datagrams (recv datagrams).sent ∧
      (recv datagrams).result = .ok true := by
  induction datagrams with
  | nil => exact ⟨.nil, rfl⟩
  | cons datagram datagrams ih =>
    obtain ⟨hsent, hrest⟩ := List.forall_mem_cons.mp hreach
    obtain ⟨r, k, name, vnfId, hreq, heq⟩ := (deploy_ensures hv hvars).sent _ hsent
    obtain ⟨-, rfl⟩ := Prod.mk.inj heq
    have hheard : Heard (g.datagram name vnfId) _ := heard_of_clean (hclean r k name vnfId hreq) hb
    obtain ⟨hall, hlistens⟩ := ih hrest
    rw [recv_of_heard hheard]
    exact ⟨.cons (announces_of_heard hv hvars hclean hsent hheard) hall, hlistens⟩

/-- For every solution of the program the script sends the message of each VNF to the node where the
solution puts it. An agent answers each datagram that it gets with the message of a VNF that is put
there, and goes on listening. -/
theorem agents_announce {b : Text} (hv : Indicates v P)
    (hvars : ∀ x, x ∈ vars ↔ x ∈ (program nodes Kr).variables)
    (hall : ∀ r < Kr.length, ∀ k < size Kr r, ∃ name vnfId, g.Vnf r k name vnfId)
    (hclean : Readable g Kr) (hb : obidirectional g.iftype = .ok b) :
    (deploy g nodes Kr v vars).result = .ok () ∧
      (∀ r k name vnfId, Requested g Kr r k name vnfId →
        (address (P.bin r k), g.datagram name vnfId) ∈ (deploy g nodes Kr v vars).sent) ∧
      ∀ n datagrams, Reach (deploy g nodes Kr v vars).sent n datagrams →
        List.Forall₂ (Announces g P n) datagrams (recv datagrams).sent ∧
          (recv datagrams).result = .ok true := by
  obtain ⟨hresult, hsent⟩ := deploy_complete hv hvars hall hclean
  exact ⟨hresult, hsent, fun n datagrams hreach ↦ agent_answers hv hvars hclean hb hreach⟩

end Agents

section Demo

open Optimum

def testGlobals : Globals where
  vnfName := [["forward1".toList, "forward2".toList],
    ["forward3".toList, "forward4".toList, "forward5".toList]]
  vnfId := [["1".toList, "2".toList], ["3".toList, "4".toList, "5".toList]]
  typeId := "1".toList
  groupId := "1".toList
  iftype := "3".toList

def testPlacement : Placement 5 [2, 3].length (size [2, 3]) where
  bin r k := ([[0, 1], [3, 4, 2]].getD r []).getD k 0
  bin_lt := by decide
  bin_inj := by decide

theorem indicates_values {nodes : ℕ} {Kr : List ℕ} (P : Placement nodes Kr.length (size Kr)) :
    Indicates (values P) P := fun _ hi _ hk n _ ↦ values_xVar P hi hk n

theorem testCells : ∀ r < [2, 3].length, ∀ k < size [2, 3] r,
    (r, k) ∈ [(0, 0), (0, 1), (1, 0), (1, 1), (1, 2)] := by decide

theorem testGlobals_readable : Readable testGlobals [2, 3] := by
  rintro r k name vnfId ⟨⟨hname, hid⟩, hr, hk⟩
  have hmem := testCells r hr k hk
  simp only [List.mem_cons, List.not_mem_nil, or_false, Prod.mk.injEq] at hmem
  rcases hmem with ⟨rfl, rfl⟩ | ⟨rfl, rfl⟩ | ⟨rfl, rfl⟩ | ⟨rfl, rfl⟩ | ⟨rfl, rfl⟩
  all_goals
    cases hname
    cases hid
    exact ⟨by unfold CommaFree; decide, by decide, by decide, .inl (by decide)⟩

theorem testGlobals_complete : ∀ r < [2, 3].length, ∀ k < size [2, 3] r, ∃ name vnfId,
    testGlobals.Vnf r k name vnfId := by
  intro r hr k hk
  have hmem := testCells r hr k hk
  simp only [List.mem_cons, List.not_mem_nil, or_false, Prod.mk.injEq] at hmem
  rcases hmem with ⟨rfl, rfl⟩ | ⟨rfl, rfl⟩ | ⟨rfl, rfl⟩ | ⟨rfl, rfl⟩ | ⟨rfl, rfl⟩
  all_goals exact ⟨_, _, rfl, rfl⟩

theorem agents_announce_demo : (deploy testGlobals 5 [2, 3] (values testPlacement)
    (program 5 [2, 3]).variables).result = .ok () ∧
    (recv [testGlobals.datagram "forward3".toList "3".toList]).result = .ok true := by
  have hb : obidirectional testGlobals.iftype = .ok "True".toList := by decide
  obtain ⟨hresult, hsent, hagents⟩ := agents_announce (indicates_values testPlacement)
    (fun x ↦ Iff.rfl) testGlobals_complete testGlobals_readable hb
  have hforward3 := hsent 1 0 "forward3".toList "3".toList ⟨⟨rfl, rfl⟩, by decide, by decide⟩
  exact ⟨hresult, (hagents 3 _ (List.forall_mem_singleton.mpr hforward3)).2⟩

end Demo

end NshSfc.Deployment
