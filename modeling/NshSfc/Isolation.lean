import NshSfc.Demo
import NshSfc.Keys

namespace NshSfc.Isolation

open Library Library.Script Python Database OpenFlow RowMatch App Packets Controller Sent Handler
  Keys Switch

variable {app : SfcApp} {db : Db}

abbrev Run := List (PacketIn × ℕ)

def Run.sent (run : Run) (app : SfcApp) (db : Db) : List Message :=
  run.flatMap fun r ↦ (packetInHandler r.2 app db r.1).sent

def InstalledFor (run : Run) (app : SfcApp) (db : Db) (f : ℕ) (s : Int) (k : FlowKey)
    (i : List Instruction) : Prop :=
  ∃ r ∈ run, r.1.metadata = some f ∧ ∃ n ∈ (packetInHandler r.2 app db r.1).sent,
    n.1.id = s ∧ n.2.toMod = .add k i

/-- Flows whose matches are disjoint and whose services differ in the four bytes of an NSH path. -/
structure Disjoint (db : Db) (F : Set ℕ) : Prop where
  clash : ∀ f ∈ F, ∀ g ∈ F, f ≠ g → ∀ row m row' m', Derived db f row m → Derived db g row' m' →
    Match.Clash (OFPMatch.fields m) (OFPMatch.fields m')
  service : ∀ f ∈ F, ∀ g ∈ F, f ≠ g → ∀ row m row' m', Derived db f row m → Derived db g row' m' →
    ∀ spi spi', row.serviceId = some spi → row'.serviceId = some spi' → nshSpi spi ≠ nshSpi spi'

theorem entry_cases {run : Run} {F : Set ℕ} (hrun : ∀ r ∈ run, ∃ f ∈ F, OfFlow app f r.1)
    {T : Network} {s : Int} {k : FlowKey} {i : List Instruction}
    (h : T.receive (run.sent app db) s k = some i) :
    T s k = some i ∨ ∃ f ∈ F, InstalledFor run app db f s k i := by
  rcases receive_eq_some h with ⟨n, hn, hs, hadd⟩ | ⟨h, -⟩
  · obtain ⟨r, hr, hn⟩ := List.mem_flatMap.mp hn
    obtain ⟨f, hf, hof⟩ := hrun r hr
    exact .inr ⟨f, hf, r, hr, hof.metadata, n, hn, hs, hadd⟩
  · exact .inl h

theorem InstalledFor.keyOf {run : Run} {f : ℕ} {s : Int} {k : FlowKey} {i : List Instruction}
    (h : InstalledFor run app db f s k i) :
    ∃ row m spi, Matched db f row m ∧ row.serviceId = some spi ∧ KeyOf (OFPMatch.fields m) spi k := by
  obtain ⟨r, -, hid, n, hn, -, hadd⟩ := h
  obtain ⟨f', row, m, hid', hm, hrule⟩ := handler_installs hn hadd
  obtain rfl : f = f' := Option.some.inj (hid.symm.trans hid')
  obtain ⟨spi, k', is, hspi, hadd', hkey⟩ := InstallRule.keyOf hm.common hrule
  rw [hadd] at hadd'
  cases hadd'
  exact ⟨row, m, spi, hm, hspi, hkey⟩

theorem clash_withoutEth {g : ℕ} {row' : FlowRow} {m m' : OFPMatch} (hm' : Matched db g row' m')
    (h : Match.Clash (OFPMatch.fields m) (OFPMatch.fields m')) :
    Match.Clash (withoutEth (OFPMatch.fields m)) (withoutEth (OFPMatch.fields m')) := by
  obtain ⟨fld, v, w, hv, hw, hne⟩ := h
  have heth := matchCommon_withoutEth hm'.common hm'.packs
  have hw' : withoutEth (OFPMatch.fields m') fld = some w := by rw [heth, hw]
  have hsrc : fld ≠ .ethSrc := by
    rintro rfl
    simp [withoutEth, Match.set] at hw'
  have hdst : fld ≠ .ethDst := by
    rintro rfl
    simp [withoutEth] at hw'
  refine ⟨fld, v, w, ?_, hw', hne⟩
  rw [withoutEth, Match.set_of_ne hdst, Match.set_of_ne hsrc, hv]

theorem KeyOf.le_of_hit {m : FieldMatch} {spi : Int} {k : FlowKey} {h : FieldMatch}
    (hkey : KeyOf m spi k) (ht : k.table = 0) (hk : k.fields ≤ h) (hin : m .inPort = none) :
    withoutEth m ≤ h := by
  cases hkey with
  | source p => exact (withoutEth_le m).trans (Match.le_of_set_le hin hk)
  | middle p => exact Match.le_of_set_le (withoutEth_inPort hin) hk
  | aware si => cases ht
  | delivery loc si => cases ht

/-- Flows with disjoint matches and services that an NSH header tells apart stay apart. -/
theorem isolation {F : Set ℕ} (hF : Disjoint db F) {run : Run}
    (hrun : ∀ r ∈ run, ∃ f ∈ F, OfFlow app f r.1) (T : Network) {f : ℕ} (hf : f ∈ F)
    {row : FlowRow} {m : OFPMatch} (hm : Derived db f row m) (s : Int) (h : FieldMatch) (k : FlowKey)
    (i : List Instruction) :
    (withoutEth (OFPMatch.fields m) ≤ h → (T.receive (run.sent app db) s).Hits 0 h k i →
      T s k = some i ∨ InstalledFor run app db f s k i) ∧
    (∀ spi, row.serviceId = some spi → h .nshSpi = some (.int (nshSpi spi)) →
      (T.receive (run.sent app db) s).Hits 1 h k i →
      T s k = some i ∨ InstalledFor run app db f s k i) := by
  have hcases : ∀ t, (T.receive (run.sent app db) s).Hits t h k i →
      (∀ g ∈ F, f ≠ g → ¬ InstalledFor run app db g s k i) →
      T s k = some i ∨ InstalledFor run app db f s k i := by
    intro t hit hforeign
    rcases entry_cases hrun hit.entry with hT | ⟨g, hg, hi⟩
    · exact .inl hT
    · by_cases hfg : f = g
      · exact .inr (hfg ▸ hi)
      · exact absurd hi (hforeign g hg hfg)
  constructor
  · intro hle hit
    refine hcases 0 hit fun g hg hfg hi ↦ ?_
    obtain ⟨row', m', spi, hm', -, hkey⟩ := hi.keyOf
    have hclash := clash_withoutEth hm' (hF.clash f hf g hg hfg row m row' m' hm hm'.toDerived)
    exact hclash.symm.not_le hle
      (KeyOf.le_of_hit hkey hit.table hit.fields (matchCommon_inPort hm'.common))
  · intro spi hspi hh hit
    refine hcases 1 hit fun g hg hfg hi ↦ ?_
    obtain ⟨row', m', spi', hm', hspi', hkey⟩ := hi.keyOf
    exact hF.service f hf g hg hfg row m row' m' hm hm'.toDerived spi spi' hspi hspi'
      (hkey.spi_eq hit.table hit.fields hh).symm

theorem demo_disjoint : Disjoint Demo.db {1, 2} := by
  have h12 : Match.Clash (OFPMatch.fields Demo.flow1Match) (OFPMatch.fields Demo.flow2Match) :=
    ⟨.ipv4Src, .int 0x0A000004, .int 0x0A000001, by decide, by decide, by decide⟩
  have h1 := Demo.flow1_matched.toDerived
  have h2 := Demo.flow2_matched.toDerived
  constructor
  · rintro f (rfl | rfl) g (rfl | rfl) hfg row m row' m' hm hm'
    · exact absurd rfl hfg
    · rw [(hm.unique h1).2, (hm'.unique h2).2]
      exact h12
    · rw [(hm.unique h2).2, (hm'.unique h1).2]
      exact h12.symm
    · exact absurd rfl hfg
  · rintro f (rfl | rfl) g (rfl | rfl) hfg row m row' m' hm hm'
    · exact absurd rfl hfg
    · rw [(hm.unique h1).1, (hm'.unique h2).1]
      rintro _ _ ⟨⟩ ⟨⟩
      decide
    · rw [(hm.unique h2).1, (hm'.unique h1).1]
      rintro _ _ ⟨⟩ ⟨⟩
      decide
    · exact absurd rfl hfg

theorem isolation_demo :
    defaultNetwork 4 Demo.flow1Source = some Demo.flow1SourceInst ∨
      InstalledFor [(Demo.packetIn, 2), (Demo.packetIn2, 3)] Demo.app Demo.db 1 4 Demo.flow1Source
        Demo.flow1SourceInst := by
  have hin2 : OfFlow Demo.app 2 Demo.packetIn2 := ⟨by decide, rfl, rfl, by decide⟩
  have hrun : ∀ r ∈ [(Demo.packetIn, 2), (Demo.packetIn2, 3)], ∃ f ∈ ({1, 2} : Set ℕ),
      OfFlow Demo.app f r.1 := by
    simp only [List.mem_cons, List.not_mem_nil, or_false]
    rintro r (rfl | rfl)
    · exact ⟨1, .inl rfl, Demo.packetIn_ofFlow⟩
    · exact ⟨2, .inr rfl, hin2⟩
  exact (isolation demo_disjoint hrun defaultNetwork (.inl rfl) Demo.flow1_matched.toDerived 4
    (Demo.packet.fields.set .inPort (some (.int 1))) Demo.flow1Source Demo.flow1SourceInst).1
    (by decide) ((receive_listed _ 4).hits (by decide +kernel) (by decide +kernel))

def demoAware : FlowKey := ⟨1, 8, OFPMatch.fields (matchSpiSi 6 1)⟩

/-- The services 6 and 4294967302 have the same low bytes. When flow 4 has been activated after
flow 1, an NSH frame of flow 1 that comes back from the shared VNF 1 meets the entry of flow 4 and
is sent to VNF 4. -/
theorem demo_shared_path :
    let run : Run := [(Demo.packetIn, 2), (Demo.packetIn4, 2)]
    let T := defaultNetwork.receive (run.sent Demo.app Demo.wideDb)
    let i := flowInstructions [.setField .ethDst (.str "00:00:00:00:00:05")] (some 4) (some 3)
    Derived Demo.wideDb 1 (deriveTypes Demo.flow1) Demo.flow1Match ∧
    Derived Demo.wideDb 4 (deriveTypes Demo.flow4) Demo.flow2Match ∧
    Match.Clash (OFPMatch.fields Demo.flow1Match) (OFPMatch.fields Demo.flow2Match) ∧
    Demo.flow1.serviceId ≠ Demo.flow4.serviceId ∧ Demo.flow1.serviceId = some 6 ∧
    (T 1).Hits 1 (OFPMatch.fields (matchSpiSi 6 1)) demoAware i ∧
    InstalledFor run Demo.app Demo.wideDb 4 1 demoAware i := by
  intro run T i
  have hclash : Match.Clash (OFPMatch.fields Demo.flow1Match) (OFPMatch.fields Demo.flow2Match) :=
    ⟨.ipv4Src, .int 0x0A000004, .int 0x0A000001, by decide, by decide, by decide⟩
  have hhit : (T 1).Hits 1 (OFPMatch.fields (matchSpiSi 6 1)) demoAware i :=
    (receive_listed _ 1).hits (by decide +kernel) (by decide +kernel)
  have hinst : InstalledFor run Demo.app Demo.wideDb 4 1 demoAware i :=
    ⟨(Demo.packetIn4, 2), by simp [run], rfl,
      (⟨1, 0⟩, .add 1 8 (matchSpiSi 6 1) i), by decide +kernel, rfl, rfl⟩
  exact ⟨⟨rfl, Demo.flow1_common⟩, ⟨rfl, Demo.flow4_common⟩, hclash, by decide, rfl, hhit, hinst⟩

end NshSfc.Isolation
