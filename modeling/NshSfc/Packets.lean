import NshSfc.OpenFlow

namespace NshSfc.Packets

open Library OpenFlow

structure Registration where
  vnfId : Option Int
  name : Option String
  typeId : Option Int
  groupId : Option Int
  geoLocation : Option String
  iftype : Option Int
  bidirectional : Option String
deriving DecidableEq

structure Ipv4Header where
  src : Int
  dst : Int
deriving DecidableEq

/-- A plain packet as Ryu's packet library and the switches see it. Ports are given as
pairs of source and destination; a frame of type 0x0800 has an IPv4 header. -/
structure Packet where
  ethSrc : String
  ethDst : String
  ethType : Int
  ipv4 : Option Ipv4Header
  ipProto : Option Int
  tcp : Option (Int × Int)
  udp : Option (Int × Int)
  ipv6 : Option (String × String)
  registration : Option Registration
  ipv4_header : ethType = 0x0800 → ipv4.isSome

namespace Packet

def fields (pkt : Packet) : FieldMatch
  | .ethSrc => some (.str pkt.ethSrc)
  | .ethDst => some (.str pkt.ethDst)
  | .ethType => some (.int pkt.ethType)
  | .ipv4Src => pkt.ipv4.map fun h ↦ .int h.src
  | .ipv4Dst => pkt.ipv4.map fun h ↦ .int h.dst
  | .ipProto => pkt.ipProto.map .int
  | .tcpSrc => pkt.tcp.map fun p ↦ .int p.1
  | .tcpDst => pkt.tcp.map fun p ↦ .int p.2
  | .udpSrc => pkt.udp.map fun p ↦ .int p.1
  | .udpDst => pkt.udp.map fun p ↦ .int p.2
  | .ipv6Src => pkt.ipv6.map fun a ↦ .str a.1
  | .ipv6Dst => pkt.ipv6.map fun a ↦ .str a.2
  | .inPort | .nshSpi | .nshSi => none

def withEthDst (pkt : Packet) (dst : String) : Packet :=
  { pkt with ethDst := dst, ipv4_header := pkt.ipv4_header }

def withEthSrc (pkt : Packet) (src : String) : Packet :=
  { pkt with ethSrc := src, ipv4_header := pkt.ipv4_header }

theorem withEthSrc_fields (pkt : Packet) (src : String) :
    (pkt.withEthSrc src).fields = pkt.fields.set .ethSrc (some (.str src)) := by
  funext f
  cases f <;> rfl

end Packet

/-- A packet-in event. `metadata` is reported only when it is not zero. -/
structure PacketIn where
  datapath : Datapath
  inPort : Int
  tableId : ℕ
  metadata : Option ℕ
  packet : Packet

end NshSfc.Packets
