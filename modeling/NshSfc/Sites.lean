import NshSfc.Linked

namespace NshSfc.Sites

open Library Library.Script Python Database OpenFlow RowMatch App Packets Controller Sent Handler
  Linked

/-- The database and the connections serve the chain `vs` for service `spi`, with service indices
down to 1. VNFs may share a switch. -/
structure Placed (app : SfcApp) (db : Db) (spi : Int) (vs : List Site) : Prop where
  length_le : vs.length ≤ 255
  id_ne_zero : ∀ v ∈ vs, v.id ≠ 0
  rows : (db.serviceRows (some spi)).Perm (linkRows (fun l ↦ l.length) spi none vs)
  bidirectional : ∀ v ∈ vs, (db.selectBidirectional v.id).head? = some (some "True")
  locator : ∀ v ∈ vs, (db.selectLocator v.id).head? = some (some v.loc, some v.dp.id, some v.port)
  connected : ∀ v ∈ vs, v.dp ∈ app.datapaths
  attachments : (vs.map Site.attachment).Nodup

namespace Placed

variable {app : SfcApp} {db : Db} {spi : Int} {vs : List Site}

theorem ids_nodup (h : Placed app db spi vs) : (vs.map Site.id).Nodup := by
  refine List.Nodup.map_on (fun v hv v' hv' hid ↦ ?_) h.attachments.of_map
  have hloc := (h.locator v hv).symm.trans (hid ▸ h.locator v' hv')
  have hsame : v.loc = v'.loc ∧ v.dp.id = v'.dp.id ∧ v.port = v'.port := by simpa using hloc
  exact List.inj_on_of_nodup_map h.attachments hv hv' (Prod.ext hsame.2.1 hsame.2.2)

theorem listed (h : Placed app db spi vs) : Listed db spi (fun l ↦ l.length) vs where
  ids := h.ids_nodup
  rows := h.rows

theorem known (h : Placed app db spi vs) {v : Site} (hv : v ∈ vs) : Known db v where
  registered := ⟨_, h.bidirectional v hv⟩
  locator := fun _ ↦ h.locator v hv

end Placed

section Rules

variable (row : FlowRow) (spi : Int) (m : Int → OFPMatch) (ethSrc : String)

/-- The port in the delivery rule of a VNF, given the VNFs after it: that of the next one. -/
def deliveryPort (v : Site) : List Site → Int
  | [] => v.port
  | v' :: _ => v'.port

/-- The flow-mods for one VNF, given the VNFs after it. `m` gives the matches of middle entries. -/
def siteRules (v : Site) : List Site → List Message
  | [] => finishRules row spi v
  | v' :: rest => steerRules row spi m ethSrc v (rest.length + 2) v' (rest.length + 1)

def sitesRules : List Site → List Message
  | [] => []
  | v :: rest => siteRules row spi m ethSrc v rest ++ sitesRules rest

end Rules

section Walk

variable {app : SfcApp} {db : Db} {spi : Int} {vs : List Site} {flowId : ℕ} {row : FlowRow}
  {m : Int → OFPMatch} {ethSrc : String}

theorem linkRules_eq (h : Placed app db spi vs) {v : Site} {rest : List Site}
    (hsuf : v :: rest <:+ vs) :
    linkRules row spi m ethSrc (bidirectional db) (fun l ↦ l.length) v (rest.length + 1) rest =
      sitesRules row spi m ethSrc (v :: rest) := by
  induction rest generalizing v with
  | nil => rfl
  | cons v' rest ih =>
    have hsuf' : v' :: rest <:+ vs := (List.suffix_cons v _).trans hsuf
    have hv' : v' ∈ vs := hsuf'.subset List.mem_cons_self
    have hb : bidirectional db v' = true := by simp [bidirectional, h.bidirectional v' hv']
    rw [linkRules, if_neg (h.id_ne_zero v' hv'), if_pos hb]
    have hrest := ih hsuf'
    simp only [List.length_cons, Nat.cast_succ] at hrest ⊢
    rw [hrest]
    simp [sitesRules, siteRules, add_assoc]

theorem handler_eq {v : Site} {rest : List Site} (h : Placed app db spi (v :: rest))
    {msg : PacketIn} (hof : OfFlow app flowId msg) {c : OFPMatch} (hc : Matched db flowId row c)
    (hspi : row.serviceId = some spi) (hm : ∀ p, matchMiddle (some p) row = .ok (m p))
    {entry : OFPMatch} (hentry : matchEntryPoint msg.inPort row = .ok entry) {fuel : ℕ}
    (hfuel : rest.length < fuel) :
    packetInHandler fuel app db msg =
      ⟨deletions app c ++ sourceMod msg spi entry (rest.length + 1) v.loc ::
        sitesRules row spi m msg.packet.ethSrc (v :: rest), .ok db⟩ := by
  have hb : Linked.bidirectional db v = true := by
    simp [bidirectional, h.bidirectional v List.mem_cons_self]
  rw [← linkRules_eq h (List.suffix_refl _)]
  exact Linked.handler_eq h.listed (fun u hu ↦ h.known hu) h.connected hb hof hc hspi hm hentry hfuel

end Walk

end NshSfc.Sites
