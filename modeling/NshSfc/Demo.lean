import NshSfc.Fuel
import NshSfc.Handler

namespace NshSfc.Demo

open Library Library.Script Database OpenFlow RowMatch App Packets Controller Sent Fuel Handler

def flow (id : Int) (src dst : String) (serviceId : Int) : FlowRow where
  id := id
  name := none
  ethDst := none
  ethSrc := none
  ethType := none
  ipProto := none
  ipv4Src := some src
  ipv4Dst := some dst
  tcpSrc := none
  tcpDst := none
  udpSrc := none
  udpDst := none
  ipv6Src := none
  ipv6Dst := none
  serviceId := some serviceId

def flow1 : FlowRow := flow 1 "10.0.0.4" "10.0.0.5" 6

def flow2 : FlowRow := flow 2 "10.0.0.1" "10.0.0.2" 7

theorem flow1_ids : ([flow1].map FlowRow.id).Nodup := by decide

def flow3 : FlowRow :=
  { flow 3 "10.0.0.4" "10.0.0.5" 7 with ipProto := some 17, udpDst := some 44444 }

def flow4 : FlowRow := flow 4 "10.0.0.1" "10.0.0.2" 0x100000006

def forwarder (id : Int) (name : String) (dpid : Int) (mac : String) : VnfRow where
  id := id
  name := some name
  typeId := some 1
  groupId := some 1
  geoLocation := some "server1.rack2.row3.room4"
  iftype := some 3
  bidirectional := some "True"
  dpid := some dpid
  inPort := some 1
  locatorAddr := some mac

/-- The database `nfv.sqlite` of the repository. -/
def db : Db where
  flows := [flow1, flow2]
  flows_id := by decide
  service :=
    [⟨6, none, 1, some 2, 2⟩, ⟨6, some 1, 2, none, 1⟩,
     ⟨7, none, 3, some 4, 3⟩, ⟨7, some 3, 4, some 5, 2⟩, ⟨7, some 4, 5, none, 1⟩]
  vnf :=
    [forwarder 1 "forward1" 1 "00:00:00:00:00:01", forwarder 5 "forward5" 3 "00:00:00:00:00:03",
     forwarder 4 "forward4" 5 "00:00:00:00:00:05", forwarder 2 "forward2" 2 "00:00:00:00:00:02",
     forwarder 3 "forward3" 4 "00:00:00:00:00:04"]

def nestedDb : Db where
  flows := [flow1, flow3]
  flows_id := by decide
  service := db.service
  vnf := db.vnf

def flow1Match : OFPMatch :=
  .appended [(.ethType, .int 0x0800), (.ipv4Src, .int 0x0A000004), (.ipv4Dst, .int 0x0A000005)]

def flow2Match : OFPMatch :=
  .appended [(.ethType, .int 0x0800), (.ipv4Src, .int 0x0A000001), (.ipv4Dst, .int 0x0A000002)]

def flow3Match : OFPMatch :=
  .appended [(.ethType, .int 0x0800), (.ipv4Src, .int 0x0A000004), (.ipv4Dst, .int 0x0A000005),
    (.ipProto, .int 17), (.udpDst, .int 44444)]

def wideDb : Db where
  flows := [flow1, flow4]
  flows_id := by decide
  service := db.service ++ [⟨0x100000006, none, 1, some 4, 2⟩, ⟨0x100000006, some 1, 4, none, 1⟩]
  vnf := db.vnf

theorem flow1_common : matchCommon (deriveTypes flow1) = .ok flow1Match :=
  flowMatch_ok.mpr ⟨0x0A000004, 0x0A000005, by decide, by decide, by decide⟩

theorem flow2_common : matchCommon (deriveTypes flow2) = .ok flow2Match :=
  flowMatch_ok.mpr ⟨0x0A000001, 0x0A000002, by decide, by decide, by decide⟩

theorem flow4_common : matchCommon (deriveTypes flow4) = .ok flow2Match :=
  flowMatch_ok.mpr ⟨0x0A000001, 0x0A000002, by decide, by decide, by decide⟩

theorem flow3_common : matchCommon (deriveTypes flow3) = .ok flow3Match :=
  flowMatch_ok.mpr ⟨0x0A000004, 0x0A000005, by decide, by decide, by decide⟩

theorem flow1_matched : Matched db 1 (deriveTypes flow1) flow1Match := ⟨⟨rfl, flow1_common⟩, rfl⟩

theorem flow2_matched : Matched db 2 (deriveTypes flow2) flow2Match := ⟨⟨rfl, flow2_common⟩, rfl⟩

def flow1Single : FlowRow := flow 1 "10.0.0.4" "10.0.0.5" 9

def singleDb : Db where
  flows := [flow1Single]
  flows_id := by decide
  service := [⟨9, none, 2, none, 1⟩]
  vnf := db.vnf

theorem flow1Single_common : matchCommon (deriveTypes flow1Single) = .ok flow1Match :=
  flowMatch_ok.mpr ⟨0x0A000004, 0x0A000005, by decide, by decide, by decide⟩

def app : SfcApp where
  datapaths := [⟨1, 0⟩, ⟨2, 0⟩, ⟨3, 0⟩, ⟨4, 0⟩, ⟨5, 0⟩]
  datapaths_id := by decide

def appWithoutSwitch2 : SfcApp where
  datapaths := [⟨1, 0⟩, ⟨3, 0⟩, ⟨4, 0⟩, ⟨5, 0⟩]
  datapaths_id := by decide

def threeSwitches : SfcApp where
  datapaths := [⟨1, 0⟩, ⟨2, 0⟩, ⟨3, 0⟩]
  datapaths_id := by decide

def packet : Packet where
  ethSrc := "00:00:00:00:00:04"
  ethDst := "00:00:00:00:00:05"
  ethType := 0x0800
  ipv4 := some ⟨0x0A000004, 0x0A000005⟩
  ipProto := some 17
  tcp := none
  udp := some (40000, 44444)
  ipv6 := none
  registration := none
  ipv4_header := fun _ ↦ rfl

def packetIn : PacketIn where
  datapath := ⟨4, 0⟩
  inPort := 1
  tableId := 2
  metadata := some 1
  packet := packet

def packetInFirst : PacketIn := { packetIn with datapath := ⟨1, 0⟩ }

def packetInElsewhere : PacketIn where
  datapath := ⟨3, 0⟩
  inPort := 3
  tableId := 2
  metadata := some 1
  packet := { packet with ethSrc := "00:00:00:00:00:03", ipv4_header := fun _ ↦ rfl }

def packetIn2 : PacketIn where
  datapath := ⟨1, 0⟩
  inPort := 1
  tableId := 2
  metadata := some 2
  packet :=
    { packet with
      ethSrc := "00:00:00:00:00:01"
      ethDst := "00:00:00:00:00:02"
      ipv4 := some ⟨0x0A000001, 0x0A000002⟩
      ipv4_header := fun _ ↦ rfl }

def packetIn4 : PacketIn := { packetIn2 with metadata := some 4 }

theorem packetIn_ofFlow : OfFlow app 1 packetIn where
  datapath := by decide
  tableId := rfl
  metadata := rfl
  notRegistration := by decide

theorem packetInElsewhere_ofFlow : OfFlow app 1 packetInElsewhere where
  datapath := by decide
  tableId := rfl
  metadata := rfl
  notRegistration := by decide

def flow1Source : FlowKey := ⟨0, 8, OFPMatch.fields (.appended ((.inPort, .int 1) :: flow1Match.list))⟩

def flow1SourceInst : List Instruction :=
  flowInstructions (encapActions 6 2 "00:00:00:00:00:01" "00:00:00:00:00:04") none (some 3)

end NshSfc.Demo
