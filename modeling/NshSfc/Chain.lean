import NshSfc.SiteTables

namespace NshSfc.Chain

open Library Library.Script Python Database OpenFlow RowMatch App Packets Controller Sent Handler
  Sites SiteTables

/-- A chain whose VNFs are on different switches, all at port `port`. -/
structure Deployed (app : SfcApp) (db : Db) (spi port : Int) (vs : List Site) : Prop
    extends Placed app db spi vs where
  ports : ∀ v ∈ vs, v.port = port
  switches : (vs.map (·.dp.id)).Nodup
  locators : (vs.map (·.loc)).Nodup

theorem attachments_of_switches {vs : List Site} (h : (vs.map (·.dp.id)).Nodup) :
    (vs.map Site.attachment).Nodup := by
  refine List.Nodup.of_map Prod.fst ?_
  rw [List.map_map]
  exact h

theorem Deployed.deliveryPort {app : SfcApp} {db : Db} {spi port : Int} {vs : List Site}
    (h : Deployed app db spi port vs) {v : Site} {rest : List Site} (hsuf : v :: rest <:+ vs) :
    deliveryPort v rest = port := by
  cases rest with
  | nil => exact h.ports v (hsuf.subset List.mem_cons_self)
  | cons v' rest => exact h.ports v' (hsuf.subset (.tail _ List.mem_cons_self))

/-- A packet-in activates a flow whose service is the chain `vs`, from a switch that hosts none
of its VNFs. -/
structure Activation (app : SfcApp) (db : Db) (flowId : ℕ) (msg : PacketIn) (row : FlowRow)
    (c : OFPMatch) (spi port : Int) (vs : List Site) : Prop where
  deployed : Deployed app db spi port vs
  ne_nil : vs ≠ []
  ofFlow : OfFlow app flowId msg
  matched : Matched db flowId row c
  ethType : row.ethType = some 0x0800
  service : row.serviceId = some spi
  hosts : ∀ v ∈ vs, v.dp.id ≠ msg.datapath.id

structure Installed (fuel : ℕ) (app : SfcApp) (db : Db) (flowId : ℕ) (msg : PacketIn) (row : FlowRow)
    (c : OFPMatch) (m : Int → OFPMatch) (entry : OFPMatch) (spi port : Int) (vs : List Site) : Prop
    extends Ruled fuel app db flowId msg row c m entry spi vs where
  deployed : Deployed app db spi port vs
  hosts : ∀ v ∈ vs, v.dp.id ≠ msg.datapath.id

theorem Activation.installed {app : SfcApp} {db : Db} {flowId : ℕ} {msg : PacketIn} {row : FlowRow}
    {c : OFPMatch} {spi port : Int} {vs : List Site}
    (h : Activation app db flowId msg row c spi port vs) {fuel : ℕ} (hfuel : vs.length ≤ fuel) :
    ∃ m entry, Installed fuel app db flowId msg row c m entry spi port vs := by
  have hactivated : Activated fuel app db flowId msg row c spi vs := by
    refine ⟨h.deployed.toPlaced, h.ne_nil, h.ofFlow, h.matched, ?_, h.service, hfuel⟩
    rw [h.ethType]
    decide
  obtain ⟨m, entry, hr⟩ := hactivated.ruled
  exact ⟨m, entry, hr, h.deployed, h.hosts⟩

end NshSfc.Chain
