import NshSfc.App
import NshSfc.Packets

namespace NshSfc.Controller

open Library Python Database OpenFlow RowMatch App Packets

def isRegistration (msg : PacketIn) : Bool :=
  let pkt := msg.packet
  let ipv4Header := if pkt.ethType = 0x0800 then pkt.ipv4 else none
  let pktUdp := if ipv4Header.isSome ∧ pkt.ipProto = some 0x11 then pkt.udp else none
  msg.tableId = 2 ∧ ipv4Header.map Ipv4Header.dst = some 0x0A0000FE ∧
    pkt.ethDst = "11:12:13:14:15:16" ∧ pktUdp.map Prod.snd = some 60000

def vnfRow (msg : PacketIn) (info : Registration) (id : Int) : VnfRow where
  id := id
  name := info.name
  typeId := info.typeId
  groupId := info.groupId
  geoLocation := info.geoLocation
  iftype := info.iftype
  bidirectional := info.bidirectional
  dpid := some msg.datapath.id
  inPort := some msg.inPort
  locatorAddr := some msg.packet.ethSrc

def register (db : Db) (msg : PacketIn) : Ctl Db :=
  if isRegistration msg then
    match msg.packet.registration with
    | none => .raise (.raised .valueError)
    | some info =>
      match info.vnfId with
      | none => pure db
      | some id => pure (db.insertVnf (vnfRow msg info id))
  else pure db

/-- Setting a field to a column's text: Ryu cannot serialise `None`. -/
def textOfColumn : Option String → Except PyError String
  | some s => .ok s
  | none => .error .typeError

structure Walk where
  vnfId : Int
  dpid : Option Int
  inPort : Option Int
  lastSi : Int
  lastLoc : String
  row : FlowRow
deriving DecidableEq

def encapActions (spi si : Int) (ethDst ethSrc : String) : List Action :=
  [.encapNsh, .setField .nshSpi (.int spi), .setField .nshSi (.int si), .encapEther,
   .setField .ethDst (.str ethDst), .setField .ethSrc (.str ethSrc)]

def steer (db : Db) (flowId : ℕ) (ethSrc : String) (datapath : Datapath) (w : Walk)
    (nextVnfId : Int) : Ctl Walk := do
  let (locatorAddr, dpid, inPort2) ← fetchone (db.selectLocator nextVnfId)
  let currentSi ← fetchone (db.selectServiceIndex w.row.serviceId nextVnfId)
  let serviceId ← py (intOfColumn w.row.serviceId)
  let locator ← py (textOfColumn locatorAddr)
  addFlow datapath 8 (matchSpiSi serviceId currentSi) [.setField .ethDst (.str locator)] 1
    (some w.row.id) (some 3)
  -- the source reads the flow row once more at every hop
  let row ← fetchone (db.selectFlows flowId)
  let row := deriveTypes row
  let m ← py (matchMiddle w.inPort row)
  let serviceId ← py (intOfColumn row.serviceId)
  addFlow datapath 6 m (encapActions serviceId currentSi locator ethSrc) 0 (some row.id) (some 3)
  let inPort ← py (intOfColumn inPort2)
  addFlow datapath 6 (matchHop w.lastLoc serviceId w.lastSi) [.decap, .decap, .output (.phys inPort)]
    1 (some row.id) none
  return { vnfId := nextVnfId, dpid, inPort := inPort2, lastSi := currentSi, lastLoc := locator, row }

def finish (datapath : Datapath) (w : Walk) : Ctl Unit := do
  let serviceId ← py (intOfColumn w.row.serviceId)
  addFlow datapath 8 (matchSpiSi serviceId 0) [.decap, .decap] 1 (some w.row.id) (some 3)
  let inPort ← py (intOfColumn w.inPort)
  addFlow datapath 6 (matchHop w.lastLoc serviceId 1) [.decap, .decap, .output (.phys inPort)] 1
    (some w.row.id) none

def hop (app : SfcApp) (db : Db) (flowId : ℕ) (ethSrc : String) (w : Walk) :
    Ctl (Option Walk) := do
  let datapath ← app.datapath w.dpid
  let nextVnfId ← fetchone (db.selectNextVnfId w.row.serviceId w.vnfId)
  match nextVnfId.filter truthy with
  | some nextVnfId =>
    let bidirectional ← fetchone (db.selectBidirectional nextVnfId)
    if bidirectional = some "True" then
      let w' ← steer db flowId ethSrc datapath w nextVnfId
      return some w'
    else return some { w with vnfId := nextVnfId }
  | none =>
    finish datapath w
    return none

/-- The `while True` loop, cut off after `fuel` iterations. -/
def walk (app : SfcApp) (db : Db) (flowId : ℕ) (ethSrc : String) : ℕ → Walk → Ctl Unit
  | 0, _ => .raise .outOfFuel
  | fuel + 1, w => do
    match ← hop app db flowId ethSrc w with
    | some w => walk app db flowId ethSrc fuel w
    | none => pure ()

/-- What the first lookups find: the first VNF, its locator and where it is attached. If the
VNF is not bidirectional the source uses variables that only a registration has set. -/
def firstVnf (db : Db) (msg : PacketIn) (serviceId : Option Int) :
    Ctl (Int × Option String × Option Int × Option Int) := do
  let vnfId ← fetchone (db.selectFirstVnfId serviceId)
  let bidirectional ← fetchone (db.selectBidirectional vnfId)
  if bidirectional = some "True" then
    let (locatorAddr, dpid, inPort) ← fetchone (db.selectLocator vnfId)
    return (vnfId, locatorAddr, dpid, inPort)
  else if isRegistration msg then
    return (vnfId, some msg.packet.ethSrc, some msg.datapath.id, some msg.inPort)
  else .raise (.raised .unboundLocalError)

def install (fuel : ℕ) (app : SfcApp) (db : Db) (msg : PacketIn) (flowId : ℕ) (row : FlowRow)
    (matchEntryPoint : OFPMatch) : Ctl Unit := do
  let lenSpi : Int := (db.selectVnfIds row.serviceId).length
  let (vnfId, locatorAddr, dpid, inPort) ← firstVnf db msg row.serviceId
  let serviceId ← py (intOfColumn row.serviceId)
  let locator ← py (textOfColumn locatorAddr)
  addFlow msg.datapath 8 matchEntryPoint (encapActions serviceId lenSpi locator msg.packet.ethSrc) 0
    none (some 3)
  walk app db flowId msg.packet.ethSrc fuel
    { vnfId, dpid, inPort, lastSi := lenSpi, lastLoc := locator, row }

def activate (fuel : ℕ) (app : SfcApp) (db : Db) (msg : PacketIn) : Ctl Unit :=
  match msg.metadata with
  | none => .raise (.raised .keyError)
  | some flowId =>
    if msg.tableId = 2 then do
      let row ← fetchone (db.selectFlows flowId)
      let row := deriveTypes row
      let entry ← py (matchEntryPoint msg.inPort row)
      let m ← py (matchCommon row)
      .forEach (fun dp ↦ delFlow dp m) app.datapaths
      install fuel app db msg flowId row entry
    else pure ()

def isKeyError : Stop → Bool
  | .raised .keyError => true
  | _ => false

/-- `_packet_in_handler`: the result is the committed database. -/
def packetInHandler (fuel : ℕ) (app : SfcApp) (db : Db) (msg : PacketIn) : Ctl Db := do
  let db ← register db msg
  .catching isKeyError (activate fuel app db msg)
  return db

end NshSfc.Controller
