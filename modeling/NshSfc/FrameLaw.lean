import NshSfc.Demo
import NshSfc.Keys

namespace NshSfc.FrameLaw

open Library Library.Script Python Database OpenFlow RowMatch App Packets Controller Sent Handler
  Keys Switch

variable {app : SfcApp} {db : Db} {msg : PacketIn}

def EntryOf (row : FlowRow) (m : OFPMatch) (k : FlowKey) : Prop :=
  k = ⟨0, 8, OFPMatch.fields m⟩ ∨ ∃ spi, row.serviceId = some spi ∧ KeyOf (OFPMatch.fields m) spi k

/-- What keeps the operations on the first flow away from the entries of the second. -/
structure Separate (rowA rowB : FlowRow) (mA mB : OFPMatch) : Prop where
  not_le : ¬ OFPMatch.fields mA ≤ OFPMatch.fields mB
  service : ∀ spi spi', rowA.serviceId = some spi → rowB.serviceId = some spi' →
    nshSpi spi ≠ nshSpi spi'

structure SparesDefaults (m : OFPMatch) : Prop where
  registration : ¬ OFPMatch.fields m ≤ OFPMatch.fields matchRegistration
  nsh : ¬ OFPMatch.fields m ≤ OFPMatch.fields matchNsh

theorem EntryOf.keyOf {rowB : FlowRow} {mB : OFPMatch} {k : FlowKey} (h : EntryOf rowB mB k)
    (hB : matchCommon rowB = .ok mB) {spi : Int}
    (hne : ∀ spi', rowB.serviceId = some spi' → nshSpi spi ≠ nshSpi spi') :
    ∃ spi', nshSpi spi ≠ nshSpi spi' ∧ KeyOf (OFPMatch.fields mB) spi' k := by
  rcases h with rfl | ⟨spi', hspi', hk⟩
  · refine ⟨spi + 1, ?_, detection_keyOf hB _⟩
    unfold nshSpi
    omega
  · exact ⟨spi', hne spi' hspi', hk⟩

theorem EntryOf.exists_keyOf {rowB : FlowRow} {mB : OFPMatch} {k : FlowKey} (h : EntryOf rowB mB k)
    (hB : matchCommon rowB = .ok mB) : ∃ spi, KeyOf (OFPMatch.fields mB) spi k := by
  rcases h with rfl | ⟨spi, -, hk⟩
  · exact ⟨0, detection_keyOf hB 0⟩
  · exact ⟨spi, hk⟩

section Reach

variable {rowA rowB : FlowRow} {mA mB : OFPMatch} {k : FlowKey}

theorem delete_spares (hA : matchCommon rowA = .ok mA) (hB : matchCommon rowB = .ok mB)
    (hsep : Separate rowA rowB mA mB) (hspare : SparesDefaults mA)
    (hk : EntryOf rowB mB k ∨ IsDefault k) :
    ¬ (k.table = 0 ∧ OFPMatch.fields mA ≤ k.fields) := by
  rintro ⟨ht, hle⟩
  rcases hk with hk | rfl | rfl | ⟨t, rfl⟩
  · obtain ⟨spi, hkey⟩ := hk.exists_keyOf hB
    exact hsep.not_le (hkey.le_of_reached (matchCommon_inPort hA) ht hle)
  · exact hspare.registration hle
  · exact hspare.nsh hle
  · exact hspare.nsh (hle.trans bot_le)

theorem install_spares (hA : matchCommon rowA = .ok mA) (hp : mA.packs)
    (hB : matchCommon rowB = .ok mB) (hsep : Separate rowA rowB mA mB)
    (hk : EntryOf rowB mB k ∨ IsDefault k) {spi : Int} (hspi : rowA.serviceId = some spi) :
    ¬ KeyOf (OFPMatch.fields mA) spi k := by
  intro h
  rcases hk with hk | hk
  · obtain ⟨spi', hne, hkey⟩ := hk.keyOf hB fun spi' ↦ hsep.service spi spi' hspi
    rcases h.eq_of_shared (matchCommon_inPort hA) (matchCommon_inPort hB) hkey with heq | heq | heq
    · exact hsep.not_le heq.le
    · -- the middle entries of the first flow have its whole match
      rw [matchCommon_withoutEth hA hp] at heq
      exact hsep.not_le (heq.le.trans (withoutEth_le _))
    · exact hne heq
  · exact h.not_isDefault hk

theorem spi_spares (hB : matchCommon rowB = .ok mB) (hk : EntryOf rowB mB k ∨ IsDefault k)
    (spi : Int) : ¬ (k.table = 0 ∧ OFPMatch.fields (matchSpi spi) ≤ k.fields) := by
  rintro ⟨ht, hle⟩
  have hspi := hle .nshSpi _ (matchSpi_nshSpi spi)
  rcases hk with hk | rfl | rfl | ⟨t, rfl⟩
  · obtain ⟨spi', hkey⟩ := hk.exists_keyOf hB
    simp [hkey.nshSpi_none (matchCommon_nshSpi hB) ht] at hspi
  · cases hspi
  · cases hspi
  · cases hspi

end Reach

section Delete

variable {a : ℕ} {row : FlowRow} {m : OFPMatch} {k : FlowKey}

theorem delete_frame (hm : Derived db a row m)
    (hk : ¬ (k.table = 0 ∧ OFPMatch.fields m ≤ k.fields))
    (hspi : ∀ spi, ¬ (k.table = 0 ∧ OFPMatch.fields (matchSpi spi) ≤ k.fields)) (T : Network)
    (s : Int) : T.receive (apiDeleteFlow app db a).sent s k = T s k := by
  refine receive_of_not_touches (fun n hn _ ↦ ?_) T
  obtain ⟨r, hr, hrule⟩ := apiDeleteFlow_sent hn
  obtain rfl := hm.rowOf.eq_of_head hr
  cases hrule with
  | common hdp hm' =>
    obtain rfl : m = _ := Except.ok.inj (hm.common.symm.trans hm')
    exact hk
  | spi hdp h => exact hspi _

/-- `api_delete_flow` leaves a key alone in all tables if and only if the flow's match does not
reach it. -/
theorem delete_frame_iff (hm : Matched db a row m) (hservice : ∃ spi, row.serviceId = some spi)
    {dp : Datapath} (hdp : dp ∈ app.datapaths)
    (hspi : ∀ spi, ¬ (k.table = 0 ∧ OFPMatch.fields (matchSpi spi) ≤ k.fields)) :
    (∀ T : Network, T.receive (apiDeleteFlow app db a).sent dp.id k = T dp.id k) ↔
      ¬ (k.table = 0 ∧ OFPMatch.fields m ≤ k.fields) := by
  constructor
  · intro h hreached
    obtain ⟨spi, hservice⟩ := hservice
    rcases receive_eq_some (h fun _ _ ↦ some []) with ⟨n, hn, -, hadd⟩ | ⟨-, hnot⟩
    · obtain ⟨r, -, hrule⟩ := apiDeleteFlow_sent hn
      cases hrule <;> cases hadd
    · exact hnot _ (delete_sent hm hservice hdp) rfl hreached
  · intro hk T
    exact delete_frame hm.toDerived hk hspi T dp.id

end Delete

/-- Handling a packet-in for one flow, or deleting it, leaves the entries of the other flow and
the default entries as they are, on every switch and in every state of the tables. -/
theorem frame_law {a b : ℕ} {rowA rowB : FlowRow} {mA mB : OFPMatch} (hA : Derived db a rowA mA)
    (hB : Derived db b rowB mB) (hsep : Separate rowA rowB mA mB) (hspare : SparesDefaults mA)
    {k : FlowKey} (hk : EntryOf rowB mB k ∨ IsDefault k) (T : Network) (s : Int) :
    (∀ msg fuel, msg.metadata = some a →
      T.receive (packetInHandler fuel app db msg).sent s k = T s k) ∧
    T.receive (apiDeleteFlow app db a).sent s k = T s k := by
  constructor
  · intro msg fuel hid
    refine receive_of_not_touches (fun n hn _ ↦ ?_) T
    obtain ⟨a', row, m, hid', hA', hrule⟩ := handler_sends hn
    obtain rfl : a = a' := Option.some.inj (hid.symm.trans hid')
    obtain ⟨rfl, rfl⟩ := hA.unique hA'.toDerived
    rcases hrule with ⟨dp, -, rfl⟩ | hrule
    · exact delete_spares hA.common hB.common hsep hspare hk
    · obtain ⟨spi, k', is, hspi, hadd, hkey⟩ := InstallRule.keyOf hA.common hrule
      rw [hadd]
      rintro rfl
      exact install_spares hA.common hA'.packs hB.common hsep hk hspi hkey
  · exact delete_frame hA (delete_spares hA.common hB.common hsep hspare hk)
      (spi_spares hB.common hk) T s

theorem frame_law_demo :
    (defaultNetwork.receive (apiAddFlow Demo.app Demo.db 2).sent).receive
        (apiDeleteFlow Demo.app Demo.db (1 : ℕ)).sent 3 ⟨0, 8, OFPMatch.fields Demo.flow2Match⟩ =
      defaultNetwork.receive (apiAddFlow Demo.app Demo.db 2).sent 3
        ⟨0, 8, OFPMatch.fields Demo.flow2Match⟩ := by
  have hservice : ∀ spi spi', (deriveTypes Demo.flow1).serviceId = some spi →
      (deriveTypes Demo.flow2).serviceId = some spi' → nshSpi spi ≠ nshSpi spi' := by
    rintro _ _ ⟨⟩ ⟨⟩
    decide
  exact (frame_law Demo.flow1_matched.toDerived Demo.flow2_matched.toDerived ⟨by decide, hservice⟩
    ⟨by decide, by decide⟩ (.inl (.inl rfl)) _ 3).2

/-- Deleting a flow deletes the detection entry of a flow with the same addresses and a port. -/
theorem demo_nested_flow_deleted :
    let T := defaultNetwork.receive (apiAddFlow Demo.app Demo.nestedDb 3).sent
    let k : FlowKey := ⟨0, 8, OFPMatch.fields Demo.flow3Match⟩
    Derived Demo.nestedDb 1 (deriveTypes Demo.flow1) Demo.flow1Match ∧
    Derived Demo.nestedDb 3 (deriveTypes Demo.flow3) Demo.flow3Match ∧
    OFPMatch.fields Demo.flow1Match ≠ OFPMatch.fields Demo.flow3Match ∧
    EntryOf (deriveTypes Demo.flow3) Demo.flow3Match k ∧
    T 4 k = some (detectionInst 3) ∧
    T.receive (apiDeleteFlow Demo.app Demo.nestedDb 1).sent 4 k = none :=
  ⟨⟨rfl, Demo.flow1_common⟩, ⟨rfl, Demo.flow3_common⟩, by decide, .inl rfl, by decide, by decide⟩

end NshSfc.FrameLaw
