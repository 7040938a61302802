import NshSfc.Handler
import NshSfc.Switch

namespace NshSfc.Keys

open Library Library.Script Python Database OpenFlow RowMatch App Packets Controller Sent Handler
  Switch

variable {app : SfcApp} {db : Db} {msg : PacketIn} {row : FlowRow}

/-- The keys of the entries for a flow with match `m` and service `spi`. The detection entry
has the key of a source entry without port. -/
inductive KeyOf (m : FieldMatch) (spi : Int) : FlowKey → Prop
  | source (p : Option Value) : KeyOf m spi ⟨0, 8, m.set .inPort p⟩
  | middle (p : Option Value) : KeyOf m spi ⟨0, 6, (withoutEth m).set .inPort p⟩
  | aware (si : Int) : KeyOf m spi ⟨1, 8, OFPMatch.fields (matchSpiSi spi si)⟩
  | delivery (loc : String) (si : Int) : KeyOf m spi ⟨1, 6, OFPMatch.fields (matchHop loc spi si)⟩

def detectionKey (m : OFPMatch) : FlowKey := ⟨0, 8, OFPMatch.fields m⟩

theorem set_inPort_none {m : FieldMatch} (h : m .inPort = none) : m.set .inPort none = m := by
  funext f
  by_cases hf : f = .inPort
  · rw [hf, Match.set_self, h]
  · exact Match.set_of_ne hf m none

theorem detection_keyOf {m : OFPMatch} (hm : matchCommon row = .ok m) (spi : Int) :
    KeyOf (OFPMatch.fields m) spi ⟨0, 8, OFPMatch.fields m⟩ := by
  have h : KeyOf (OFPMatch.fields m) spi _ := .source none
  rwa [set_inPort_none (matchCommon_inPort hm)] at h

theorem InstallRule.keyOf {m : OFPMatch} (hm : matchCommon row = .ok m) {n : Message}
    (h : InstallRule app msg row n) : ∃ spi k is, row.serviceId = some spi ∧
      n.2.toMod = .add k is ∧ KeyOf (OFPMatch.fields m) spi k := by
  cases h with
  | @source e he spi hspi si loc =>
    refine ⟨spi, _, _, hspi, rfl, ?_⟩
    rw [matchEntryPoint_fields hm he]
    exact .source _
  | chain h =>
    cases h with
    | @aware dp hdp spi hspi si loc => exact ⟨spi, _, _, hspi, rfl, .aware si⟩
    | @middle dp hdp spi hspi p e he si loc =>
      refine ⟨spi, _, _, hspi, rfl, ?_⟩
      rw [matchMiddle_fields hm he]
      exact .middle _
    | @delivery dp hdp spi hspi loc si p => exact ⟨spi, _, _, hspi, rfl, .delivery loc si⟩
    | @last dp hdp spi hspi => exact ⟨spi, _, _, hspi, rfl, .aware 0⟩

section Two

variable {m m' : FieldMatch} {spi spi' : Int}

/-- Two flows write the same key only if their matches, the parts of their matches without
Ethernet addresses, or the low bytes of their services coincide. -/
theorem KeyOf.eq_of_shared {k : FlowKey} (hm : m .inPort = none) (hm' : m' .inPort = none)
    (h : KeyOf m spi k) (h' : KeyOf m' spi' k) :
    m = m' ∨ withoutEth m = withoutEth m' ∨ nshSpi spi = nshSpi spi' := by
  cases h with
  | source p =>
    generalize hk : (⟨0, 8, m.set .inPort p⟩ : FlowKey) = k at h'
    cases h' <;> simp only [Key.mk.injEq] at hk <;> try omega
    exact .inl (Match.set_injective hm hm' hk.2.2)
  | middle p =>
    generalize hk : (⟨0, 6, (withoutEth m).set .inPort p⟩ : FlowKey) = k at h'
    cases h' <;> simp only [Key.mk.injEq] at hk <;> try omega
    exact .inr (.inl (Match.set_injective (withoutEth_inPort hm) (withoutEth_inPort hm') hk.2.2))
  | aware si =>
    generalize hk : (⟨1, 8, OFPMatch.fields (matchSpiSi spi si)⟩ : FlowKey) = k at h'
    cases h' <;> simp only [Key.mk.injEq] at hk <;> try omega
    exact .inr (.inr (matchSpiSi_inj hk.2.2).1)
  | delivery loc si =>
    generalize hk : (⟨1, 6, OFPMatch.fields (matchHop loc spi si)⟩ : FlowKey) = k at h'
    cases h' <;> simp only [Key.mk.injEq] at hk <;> try omega
    exact .inr (.inr (matchHop_inj hk.2.2).2.1)

theorem KeyOf.le_of_reached {k : FlowKey} (hm : m .inPort = none) (h : KeyOf m' spi' k)
    (ht : k.table = 0) (hle : m ≤ k.fields) : m ≤ m' := by
  cases h with
  | source p => exact Match.le_of_le_set hm hle
  | middle p => exact (Match.le_of_le_set hm hle).trans (withoutEth_le m')
  | aware si => cases ht
  | delivery loc si => cases ht

theorem KeyOf.nshSpi_none {k : FlowKey} (hm : m .nshSpi = none) (h : KeyOf m spi k) (ht : k.table = 0) :
    k.fields .nshSpi = none := by
  cases h with
  | source p => simpa [Match.set] using hm
  | middle p => simpa [Match.set, withoutEth] using hm
  | aware si => cases ht
  | delivery loc si => cases ht

theorem KeyOf.spi_eq {k : FlowKey} {h : FieldMatch} (hkey : KeyOf m spi k) (ht : k.table = 1)
    (hk : k.fields ≤ h) (hspi : h .nshSpi = some (.int spi')) : nshSpi spi = spi' := by
  have hval : ∀ {v}, h .nshSpi = some (.int v) → v = spi' := by
    intro v hv
    simpa using hv.symm.trans hspi
  cases hkey with
  | source p => cases ht
  | middle p => cases ht
  | aware si => exact hval (hk .nshSpi _ (matchSpiSi_nshSpi spi si))
  | delivery loc si => exact hval (hk .nshSpi _ (matchHop_nshSpi loc spi si))

end Two

theorem KeyOf.not_isDefault {m : FieldMatch} {spi : Int} {k : FlowKey} (h : KeyOf m spi k) :
    ¬ IsDefault k := by
  rintro (rfl | rfl | ⟨t, rfl⟩) <;> cases h

end NshSfc.Keys
