import NshSfc.Library.Script
import NshSfc.RowMatch

namespace NshSfc.App

open Library Library.Script Python Database OpenFlow RowMatch

/-- The application object. `datapaths` lists the values of the dictionary
`self.datapaths`, whose keys are the ids of the switches. -/
structure SfcApp where
  datapaths : List Datapath
  datapaths_id : (datapaths.map Datapath.id).Nodup

/-- A run of one handler: the flow-mods it sends and how it ends. -/
abbrev Ctl (α : Type) := Script Message Stop α

def py {α : Type} (r : Except PyError α) : Ctl α := .lift (r.mapError .raised)

/-- `cur.fetchone()` where the source takes the row apart at once. -/
def fetchone {α : Type} : List α → Ctl α
  | [] => .raise (.raised .typeError)
  | row :: _ => pure row

def SfcApp.datapath (app : SfcApp) (dpid : Option Int) : Ctl Datapath :=
  match app.datapaths.find? fun dp ↦ some dp.id = dpid with
  | some dp => pure dp
  | none => .raise (.raised .keyError)

def SfcApp.connected (app : SfcApp) (dpid : Option Int) : Bool :=
  app.datapaths.any fun dp ↦ some dp.id = dpid

/-- `datapath.send_msg`, which serialises the message before it sends it. -/
def sendMsg (datapath : Datapath) (mod : FlowMod) : Ctl Unit :=
  if mod.packs then .send (datapath, mod) else .raise (.raised .structError)

def addFlow (datapath : Datapath) (priority : ℕ) (m : OFPMatch) (actions : List Action)
    (tableId : ℕ) (metadata : Option Int) (gotoId : Option ℕ) : Ctl Unit :=
  sendMsg datapath (.add tableId priority m (flowInstructions actions metadata gotoId))

/-- `del_flow`, which every caller uses without a table: Ryu then names table 0. -/
def delFlow (datapath : Datapath) (m : OFPMatch) : Ctl Unit :=
  sendMsg datapath (.delete 0 m)

def matchRegistration : OFPMatch :=
  .keywords [(.ethDst, .str "11:12:13:14:15:16"), (.ethType, .int 0x0800), (.ipProto, .int 17),
    (.ipv4Dst, .int 0x0A0000FE), (.udpDst, .int 60000)]

def matchNsh : OFPMatch := .keywords [(.ethType, .int 0x894F)]

def matchSpi (spi : Int) : OFPMatch :=
  .keywords [(.ethType, .int 0x894F), (.nshSpi, .int (nshSpi spi))]

def matchSpiSi (spi si : Int) : OFPMatch :=
  .keywords [(.ethType, .int 0x894F), (.nshSpi, .int (nshSpi spi)), (.nshSi, .int (nshSi si))]

def matchHop (ethDst : String) (spi si : Int) : OFPMatch :=
  .keywords [(.ethDst, .str ethDst), (.ethType, .int 0x894F), (.nshSpi, .int (nshSpi spi)),
    (.nshSi, .int (nshSi si))]

section Fields

variable (loc : String) (spi si : Int)

@[simp] theorem matchSpi_nshSpi :
    OFPMatch.fields (matchSpi spi) .nshSpi = some (.int (nshSpi spi)) := rfl

@[simp] theorem matchSpiSi_nshSpi :
    OFPMatch.fields (matchSpiSi spi si) .nshSpi = some (.int (nshSpi spi)) := rfl

@[simp] theorem matchSpiSi_nshSi :
    OFPMatch.fields (matchSpiSi spi si) .nshSi = some (.int (nshSi si)) := rfl

@[simp] theorem matchHop_ethDst : OFPMatch.fields (matchHop loc spi si) .ethDst = some (.str loc) := rfl

@[simp] theorem matchHop_nshSpi :
    OFPMatch.fields (matchHop loc spi si) .nshSpi = some (.int (nshSpi spi)) := rfl

@[simp] theorem matchHop_nshSi :
    OFPMatch.fields (matchHop loc spi si) .nshSi = some (.int (nshSi si)) := rfl

end Fields

theorem matchSpiSi_inj {spi spi' si si' : Int}
    (h : OFPMatch.fields (matchSpiSi spi si) = OFPMatch.fields (matchSpiSi spi' si')) :
    nshSpi spi = nshSpi spi' ∧ nshSi si = nshSi si' := by
  have hspi := congrFun h .nshSpi
  have hsi := congrFun h .nshSi
  exact ⟨by simpa using hspi, by simpa using hsi⟩

theorem matchHop_inj {loc loc' : String} {spi spi' si si' : Int}
    (h : OFPMatch.fields (matchHop loc spi si) = OFPMatch.fields (matchHop loc' spi' si')) :
    loc = loc' ∧ nshSpi spi = nshSpi spi' ∧ nshSi si = nshSi si' := by
  have hloc := congrFun h .ethDst
  have hspi := congrFun h .nshSpi
  have hsi := congrFun h .nshSi
  exact ⟨by simpa using hloc, by simpa using hspi, by simpa using hsi⟩

section Send

variable {dp : Datapath} {m : OFPMatch} {mod : FlowMod}

theorem sendMsg_of_packs (h : mod.packs) : sendMsg dp mod = .send (dp, mod) := if_pos h

theorem sendMsg_of_not_packs (h : ¬ mod.packs) : sendMsg dp mod = .raise (.raised .structError) :=
  if_neg h

theorem sendMsg_of_ok (h : (sendMsg dp mod).result = .ok ()) : sendMsg dp mod = .send (dp, mod) := by
  by_cases hp : mod.packs
  · exact sendMsg_of_packs hp
  · rw [sendMsg_of_not_packs hp] at h
    cases h

theorem addFlow_of_packs (hm : m.packs) {metadata : Option Int} (hn : ∀ n ∈ metadata, 0 ≤ n)
    (priority : ℕ) (actions : List Action) (tableId : ℕ) (gotoId : Option ℕ) :
    addFlow dp priority m actions tableId metadata gotoId =
      .send (dp, .add tableId priority m (flowInstructions actions metadata gotoId)) :=
  sendMsg_of_packs (by simp [FlowMod.packs, hm, flowInstructions_packs actions hn])

theorem addFlow_of_not_packs (hm : ¬ m.packs) (priority : ℕ) (actions : List Action) (tableId : ℕ)
    (metadata : Option Int) (gotoId : Option ℕ) :
    addFlow dp priority m actions tableId metadata gotoId = .raise (.raised .structError) :=
  sendMsg_of_not_packs (by simp [FlowMod.packs, hm])

theorem delFlow_of_packs (hm : m.packs) : delFlow dp m = .send (dp, .delete 0 m) :=
  sendMsg_of_packs hm

theorem delFlow_of_not_packs (hm : ¬ m.packs) : delFlow dp m = .raise (.raised .structError) :=
  sendMsg_of_not_packs hm

end Send

def switchFeaturesHandler (datapath : Datapath) : Ctl Unit := do
  addFlow datapath 10 matchRegistration [] 0 none (some 2)
  addFlow datapath 9 matchNsh [] 0 none (some 1)
  addFlow datapath 0 (.keywords []) [] 0 none (some 3)
  addFlow datapath 0 (.keywords []) [] 1 none (some 3)
  addFlow datapath 0 (.keywords []) [.output .controller] 2 none none
  addFlow datapath 0 (.keywords []) [.output .normal] 3 none none

def addDetection (row : FlowRow) (dp : Datapath) : Ctl Unit := do
  let m ← py (matchAdd row)
  addFlow dp 8 m [] 0 (some row.id) (some 2)

def apiAddFlow (app : SfcApp) (db : Db) (flowId : Int) : Ctl ℕ :=
  match db.selectFlows flowId with
  | [] => pure 404
  | rows => do
    .forEach (fun row ↦ .forEach (addDetection (deriveTypes row)) app.datapaths) rows
    return 200

def deleteEntries (row : FlowRow) (dp : Datapath) : Ctl Unit := do
  let m ← py (matchDel row)
  delFlow dp m
  let serviceId ← py (intOfColumn row.serviceId)
  delFlow dp (matchSpi serviceId)

def apiDeleteFlow (app : SfcApp) (db : Db) (flowId : Int) : Ctl ℕ :=
  match db.selectFlows flowId with
  | [] => pure 404
  | row :: _ => do
    .forEach (deleteEntries (deriveTypes row)) app.datapaths
    return 200

@[simp] theorem py_ok {α : Type} (a : α) : (py (.ok a) : Ctl α) = pure a := rfl

@[simp] theorem py_error {α : Type} (e : PyError) : (py (.error e) : Ctl α) = .raise (.raised e) := rfl

@[simp] theorem py_sent {α : Type} (r : Except PyError α) : (py r).sent = [] := rfl

theorem py_result_ok {α : Type} {r : Except PyError α} {a : α} :
    (py r).result = .ok a ↔ r = .ok a := by
  cases r <;> simp [py, Except.mapError]

theorem fetchone_nil {α : Type} : fetchone ([] : List α) = .raise (.raised .typeError) := rfl

theorem fetchone_cons {α : Type} (row : α) (rows : List α) :
    fetchone (row :: rows) = (pure row : Ctl α) := rfl

@[simp] theorem fetchone_sent {α : Type} (rows : List α) : (fetchone rows).sent = [] := by
  cases rows <;> rfl

theorem fetchone_result_ok {α : Type} {rows : List α} {a : α} :
    (fetchone rows).result = .ok a ↔ rows.head? = some a := by
  cases rows <;> simp [fetchone]

@[simp] theorem datapath_sent (app : SfcApp) (dpid : Option Int) : (app.datapath dpid).sent = [] := by
  unfold SfcApp.datapath
  split <;> rfl

theorem datapath_result_ok {app : SfcApp} {dpid : Option Int} {dp : Datapath}
    (h : (app.datapath dpid).result = .ok dp) : dp ∈ app.datapaths ∧ dpid = some dp.id := by
  unfold SfcApp.datapath at h
  split at h
  case h_1 dp' hf =>
    cases h
    have hid : some dp.id = dpid := by simpa using List.find?_some hf
    exact ⟨List.mem_of_find?_eq_some hf, hid.symm⟩
  case h_2 => cases h

theorem datapath_of_mem {app : SfcApp} {dp : Datapath} (h : dp ∈ app.datapaths) :
    app.datapath (some dp.id) = pure dp := by
  have hnd := app.datapaths_id
  have hf : app.datapaths.find? (fun d ↦ some d.id = some dp.id) = some dp := by
    generalize app.datapaths = dps at h hnd
    induction dps with
    | nil => simp at h
    | cons d dps ih =>
      obtain ⟨hd, hnd⟩ := List.nodup_cons.mp hnd
      rcases List.mem_cons.mp h with rfl | h
      · simp
      · have hne : d.id ≠ dp.id := fun he ↦ hd (List.mem_map.mpr ⟨dp, h, he.symm⟩)
        rw [List.find?_cons_of_neg (by simpa using hne)]
        exact ih h hnd
  unfold SfcApp.datapath
  rw [hf]

theorem datapath_ok_iff {app : SfcApp} {dpid : Option Int} :
    (∃ dp, (app.datapath dpid).result = .ok dp) ↔ app.connected dpid := by
  constructor
  · rintro ⟨dp, hdp⟩
    obtain ⟨hmem, hid⟩ := datapath_result_ok hdp
    exact List.any_eq_true.mpr ⟨dp, hmem, by simp [hid]⟩
  · intro h
    obtain ⟨dp, hmem, hid⟩ := List.any_eq_true.mp h
    have hid : some dp.id = dpid := by simpa using hid
    exact ⟨dp, by rw [← hid, datapath_of_mem hmem, pure_result]⟩

end NshSfc.App
