import NshSfc.Chain
import NshSfc.SiteFrames

namespace NshSfc.ChainFrames

open Library Library.Script Python Database OpenFlow RowMatch App Packets Controller Sent Handler
  Keys Switch Sites SiteTables SiteFrames Chain Pipeline

variable {fuel : ℕ} {app : SfcApp} {db : Db} {flowId : ℕ} {msg : PacketIn} {row : FlowRow}
  {c entry : OFPMatch} {m : Int → OFPMatch} {spi port : Int} {vs : List Site} {s q : Int}
  {md : BitVec 64} {outs : List Out}

/-- A packet of the flow as it comes from a VNF: it agrees with the flow but for the Ethernet
addresses, and is no registration packet. -/
structure Returned (c : OFPMatch) (pkt : Packet) : Prop where
  flow : withoutEth (OFPMatch.fields c) ≤ pkt.fields
  notRegistration : ¬ OFPMatch.fields matchRegistration ≤ pkt.fields

theorem Returned.ofChain {pkt : Packet} (h : Returned c pkt) : OfChain c pkt :=
  ⟨h.flow, h.notRegistration⟩

theorem own (h : Installed fuel app db flowId msg row c m entry spi port vs) {v : Site}
    (hv : v ∈ vs) : Own msg vs v where
  source hs := absurd hs (h.hosts v hv)
  others _ hu hs hne := absurd (List.inj_on_of_nodup_map h.deployed.switches hu hv hs) hne

section Nsh

variable {v : Site} {rest : List Site} {src : String} {f : Frame}

theorem passes_delivery (h : Installed fuel app db flowId msg row c m entry spi port vs)
    (hsuf : v :: rest <:+ vs) (hq : q ≠ port) :
    Passes (steered fuel app db flowId msg v.dp.id) q 0 md
      (.ether v.loc src spi (rest.length + 1) f) outs ↔ outs = [.port port f] := by
  have hout : [Out.port port f] = emit q 1 0 f (.phys (deliveryPort v rest)) := by
    rw [h.deployed.deliveryPort hsuf]
    simp [emit, hq.symm]
  rw [hout]
  exact SiteFrames.passes_delivery h.toRuled hsuf (previous_apart h.deployed.switches hsuf)

end Nsh

section Plain

variable {pkt : Packet} {v : Site} {rest : List Site}

/-- A packet that a VNF has sent back to the common port goes on to the next VNF, or as it is after
the last one. -/
theorem passes_returned (h : Installed fuel app db flowId msg row c m entry spi port vs)
    (hsuf : v :: rest <:+ vs) (hp : Returned c pkt) :
    Passes (steered fuel app db flowId msg v.dp.id) port 0 md (.plain pkt) outs ↔
      outs = [.normal (onward msg.packet.ethSrc spi (.plain pkt) rest)] := by
  have hv : v ∈ vs := hsuf.subset List.mem_cons_self
  rw [← h.deployed.ports v hv]
  exact SiteFrames.passes_returned h.toRuled (own h hv) hsuf hp.ofChain

end Plain

end NshSfc.ChainFrames
