import NshSfc.Demo
import NshSfc.Keys
import NshSfc.Library.Commuting
import NshSfc.Operations

namespace NshSfc.Commuting

open Library Library.Script Python Database OpenFlow RowMatch App Packets Controller Sent Fuel
  Handler Keys Operations

variable {app : SfcApp} {db : Db} {f g : ℕ}

/-- The fields of a flow that its source entry and its middle entries have in common. -/
def steeringFields : List Field :=
  [.ethType, .ipv4Src, .ipv4Dst, .ipProto, .tcpSrc, .tcpDst, .udpSrc, .udpDst]

/-- Two flows whose services differ in the four bytes of an NSH path and whose matches disagree on a
field that both specify. -/
structure Separate (db : Db) (f g : ℕ) : Prop where
  service : ∀ row m row' m', Derived db f row m → Derived db g row' m' →
    ∀ spi spi', row.serviceId = some spi → row'.serviceId = some spi' → nshSpi spi ≠ nshSpi spi'
  disagree : ∀ row m row' m', Derived db f row m → Derived db g row' m' →
    ∃ fld ∈ steeringFields, ∃ v w, OFPMatch.fields m fld = some v ∧ OFPMatch.fields m' fld = some w ∧
      v ≠ w

theorem withoutEth_of_steering {fld : Field} (h : fld ∈ steeringFields) (m : FieldMatch) :
    withoutEth m fld = m fld := by
  have hdst : fld ≠ .ethDst := by
    rintro rfl
    exact absurd h (by decide)
  have hsrc : fld ≠ .ethSrc := by
    rintro rfl
    exact absurd h (by decide)
  rw [withoutEth, Match.set_of_ne hdst, Match.set_of_ne hsrc]

theorem Separate.clash (h : Separate db f g) {row row' : FlowRow} {m m' : OFPMatch}
    (hm : Derived db f row m) (hm' : Derived db g row' m') :
    Match.Clash (withoutEth (OFPMatch.fields m)) (withoutEth (OFPMatch.fields m')) := by
  obtain ⟨fld, hfld, v, w, hv, hw, hne⟩ := h.disagree row m row' m' hm hm'
  exact ⟨fld, v, w, by rw [withoutEth_of_steering hfld, hv], by rw [withoutEth_of_steering hfld, hw],
    hne⟩

theorem sent_cases {msg : PacketIn} (hid : msg.metadata = some f) {fuel : ℕ} {n : Message}
    (hn : n ∈ (packetInHandler fuel app db msg).sent) :
    ∃ row m, Matched db f row m ∧ (n.2.toMod = .delete 0 (OFPMatch.fields m) ∨
      ∃ spi k i, row.serviceId = some spi ∧ n.2.toMod = .add k i ∧ KeyOf (OFPMatch.fields m) spi k) := by
  obtain ⟨f', row, m, hid', hm, hcase⟩ := handler_sends hn
  obtain rfl : f = f' := Option.some.inj (hid.symm.trans hid')
  refine ⟨row, m, hm, ?_⟩
  rcases hcase with ⟨dp, -, rfl⟩ | hrule
  · exact .inl rfl
  · exact .inr (InstallRule.keyOf hm.common hrule)

theorem delete_commutes_entry {row : FlowRow} {m m' : OFPMatch} (hm : Derived db f row m)
    (hclash : Match.Clash (withoutEth (OFPMatch.fields m)) (withoutEth (OFPMatch.fields m')))
    {spi : Int} {k : FlowKey} (hkey : KeyOf (OFPMatch.fields m') spi k) (i : List Instruction) :
    (Mod.delete 0 (OFPMatch.fields m)).Commutes (.add k i) := by
  apply FlowTable.delete_commutes_add
  intro ⟨ht, hle⟩
  have hle := hkey.le_of_reached (matchCommon_inPort hm.common) ht hle
  exact (hclash.mono (withoutEth_le _) (withoutEth_le _)).not_le le_rfl hle

theorem sent_commutes (hsep : Separate db f g) {msg msg' : PacketIn} (hid : msg.metadata = some f)
    (hid' : msg'.metadata = some g) {fuel fuel' : ℕ} {n n' : Message}
    (hn : n ∈ (packetInHandler fuel app db msg).sent)
    (hn' : n' ∈ (packetInHandler fuel' app db msg').sent) : n.2.toMod.Commutes n'.2.toMod := by
  obtain ⟨row, m, hm, hcase⟩ := sent_cases hid hn
  obtain ⟨row', m', hm', hcase'⟩ := sent_cases hid' hn'
  have hclash := hsep.clash hm.toDerived hm'.toDerived
  rcases hcase with hdel | ⟨spi, k, i, hspi, hadd, hkey⟩ <;>
    rcases hcase' with hdel' | ⟨spi', k', i', hspi', hadd', hkey'⟩
  · rw [hdel, hdel']
    exact FlowTable.delete_commutes_delete 0 0 _ _
  · rw [hdel, hadd']
    exact delete_commutes_entry hm.toDerived hclash hkey' i'
  · rw [hadd, hdel']
    exact (delete_commutes_entry hm'.toDerived hclash.symm hkey i).symm
  · rw [hadd, hadd']
    apply FlowTable.add_commutes_add
    intro hk
    have hkey' := hk ▸ hkey'
    rcases hkey.eq_of_shared (matchCommon_inPort hm.common) (matchCommon_inPort hm'.common) hkey' with
      h | h | h
    · exact hclash.ne (by rw [h])
    · exact hclash.ne h
    · exact hsep.service row m row' m' hm.toDerived hm'.toDerived spi spi' hspi hspi' h

theorem committed_eq {msg : PacketIn} (h : isRegistration msg = false) {r : Ctl Db}
    (hr : Handles app db msg r) : committed db r = db := by
  obtain ⟨fuel, rfl, -⟩ := hr
  rw [handler_of_not_registration h]
  unfold committed
  split
  case h_1 db' hok =>
    obtain ⟨-, -, hok⟩ := bind_result_ok.mp hok
    exact (Except.ok.inj hok).symm
  case h_2 => rfl

/-- Packet-ins of separate flows can be handled in either order. -/
theorem activations_commute (hsep : Separate db f g) {msg msg' : PacketIn}
    (hid : msg.metadata = some f) (hreg : isRegistration msg = false)
    (hid' : msg'.metadata = some g) (hreg' : isRegistration msg' = false) {r₁ r₂ s₁ s₂ : Ctl Db}
    (hr₁ : Handles app db msg r₁) (hr₂ : Handles app (committed db r₁) msg' r₂)
    (hs₁ : Handles app db msg' s₁) (hs₂ : Handles app (committed db s₁) msg s₂) (T : Network) :
    (T.receive r₁.sent).receive r₂.sent = (T.receive s₁.sent).receive s₂.sent := by
  rw [committed_eq hreg hr₁] at hr₂
  rw [committed_eq hreg' hs₁] at hs₂
  rw [hr₁.unique hs₂, hr₂.unique hs₁]
  obtain ⟨fuel, rfl, -⟩ := hs₁
  obtain ⟨fuel', rfl, -⟩ := hs₂
  apply Fabric.deliver_comm
  intro s m m' hm hm'
  obtain ⟨n, hn, -, rfl⟩ := mem_mods.mp hm
  obtain ⟨n', hn', -, rfl⟩ := mem_mods.mp hm'
  exact sent_commutes hsep hid hid' hn hn'

theorem demo_separate : Separate Demo.db 1 2 := by
  constructor
  · intro row m row' m' hm hm'
    rw [(hm.unique Demo.flow1_matched.toDerived).1, (hm'.unique Demo.flow2_matched.toDerived).1]
    rintro _ _ ⟨⟩ ⟨⟩
    decide
  · intro row m row' m' hm hm'
    rw [(hm.unique Demo.flow1_matched.toDerived).2, (hm'.unique Demo.flow2_matched.toDerived).2]
    exact ⟨.ipv4Src, by decide, .int 0x0A000004, .int 0x0A000001, by decide, by decide, by decide⟩

theorem activations_commute_demo :
    (Switch.defaultNetwork.receive (packetInHandler 2 Demo.app Demo.db Demo.packetIn).sent).receive
      (packetInHandler 3 Demo.app Demo.db Demo.packetIn2).sent =
    (Switch.defaultNetwork.receive
      (packetInHandler 3 Demo.app Demo.db Demo.packetIn2).sent).receive
      (packetInHandler 2 Demo.app Demo.db Demo.packetIn).sent := by
  have h : Handles Demo.app Demo.db Demo.packetIn (packetInHandler 2 Demo.app Demo.db Demo.packetIn) :=
    ⟨2, rfl, ends_of_ok (a := Demo.db) rfl⟩
  have h' : Handles Demo.app Demo.db Demo.packetIn2
      (packetInHandler 3 Demo.app Demo.db Demo.packetIn2) :=
    ⟨3, rfl, ends_of_ok (a := Demo.db) rfl⟩
  exact activations_commute demo_separate rfl (by decide) rfl (by decide) h h' h' h _

/-- The services 6 and 4294967302 have the same low bytes: on switch 1, the entry for the frames
that come back from VNF 1 is that of the flow activated last. -/
theorem demo_order_shows :
    let T := Switch.defaultNetwork
    let x := packetInHandler 2 Demo.app Demo.wideDb Demo.packetIn
    let y := packetInHandler 2 Demo.app Demo.wideDb Demo.packetIn4
    Derived Demo.wideDb 1 (deriveTypes Demo.flow1) Demo.flow1Match ∧
    Derived Demo.wideDb 4 (deriveTypes Demo.flow4) Demo.flow2Match ∧
    OFPMatch.fields Demo.flow1Match .ipv4Src = some (.int 0x0A000004) ∧
    OFPMatch.fields Demo.flow2Match .ipv4Src = some (.int 0x0A000001) ∧
    Demo.flow1.serviceId ≠ Demo.flow4.serviceId ∧
    Handles Demo.app Demo.wideDb Demo.packetIn x ∧ Handles Demo.app Demo.wideDb Demo.packetIn4 y ∧
    (T.receive x.sent).receive y.sent ≠ (T.receive y.sent).receive x.sent := by
  intro T x y
  have hx : Handles Demo.app Demo.wideDb Demo.packetIn x := ⟨2, rfl, ends_of_ok (a := Demo.wideDb) rfl⟩
  have hy : Handles Demo.app Demo.wideDb Demo.packetIn4 y :=
    ⟨2, rfl, ends_of_ok (a := Demo.wideDb) rfl⟩
  have hne : (T.receive x.sent).receive y.sent 1 ⟨1, 8, OFPMatch.fields (matchSpiSi 6 1)⟩ ≠
      (T.receive y.sent).receive x.sent 1 ⟨1, 8, OFPMatch.fields (matchSpiSi 6 1)⟩ := by
    decide +kernel
  exact ⟨⟨rfl, Demo.flow1_common⟩, ⟨rfl, Demo.flow4_common⟩, rfl, rfl, by decide, hx, hy,
    fun heq ↦ hne (by rw [heq])⟩

end NshSfc.Commuting
