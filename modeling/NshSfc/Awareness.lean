import NshSfc.Colocation

namespace NshSfc.Awareness

open Library Library.Script Python Database OpenFlow RowMatch App Packets Controller Sent Handler
  Keys Switch Sites SiteTables SiteFrames Pipeline

/-- The switch of `v` hands every frame for it over with its headers, at the port of `v` or by NORMAL
forwarding to its address. -/
def Intact (T : Network) (spi : Int) (v : Site) (rest : List Site) : Prop :=
  ∀ src inner q outs, q ≠ v.port →
    Passes (T v.dp.id) q 0 0 (.ether v.loc src spi (rest.length + 1) inner) outs →
      outs = [.port v.port (.ether v.loc src spi (rest.length + 1) inner)] ∨
      outs = [.normal (.ether v.loc src spi (rest.length + 1) inner)]

/-- A frame that `v` has sent back with the next service index goes on to the next VNF, or without
headers after the last one. -/
def Redirected (T : Network) (spi : Int) (v : Site) (rest : List Site) : Prop :=
  ∀ dst src inner outs, Passes (T v.dp.id) v.port 0 0 (.ether dst src spi rest.length inner) outs ↔
    outs = [.normal (onward src spi inner rest)]

def Served (T : Network) (spi : Int) (v : Site) (rest : List Site) : Prop :=
  Intact T spi v rest ∧ Redirected T spi v rest

variable {fuel : ℕ} {app : SfcApp} {db : Db} {flowId : ℕ} {msg : PacketIn} {row : FlowRow}
  {c entry : OFPMatch} {m : Int → OFPMatch} {spi : Int} {vs : List Site} {v : Site}
  {rest : List Site} {q : Int} {md : BitVec 64} {outs : List Out} {dst src : String} {inner : Frame}

theorem hop_at_switch (h : Ruled fuel app db flowId msg row c m entry spi vs)
    (hsw : (vs.map fun v ↦ v.dp.id).Nodup) (hsuf : v :: rest <:+ vs) {k : FlowKey}
    {i : List Instruction} {f : Frame}
    (ha : (steered fuel app db flowId msg v.dp.id).Applies 1 (f.header q) k i) :
    k = missKey 1 ∨ SiteEntry row spi m msg.packet.ethSrc v rest k i := by
  have htable := ha.table
  cases h.entry_of ha.entry with
  | default hd =>
    cases hd with
    | miss1 => exact .inl rfl
    | _ => cases htable
  | source => cases htable
  | hop hsuf' hs hv =>
    obtain ⟨rfl, rfl⟩ := suffix_unique hsw hsuf hsuf' hs.symm
    exact .inr hv

theorem not_intact (h : Ruled fuel app db flowId msg row c m entry spi vs)
    (hsw : (vs.map fun v ↦ v.dp.id).Nodup) (hsuf : v :: rest <:+ vs) :
    ¬ Intact (steered fuel app db flowId msg) spi v rest := by
  intro hintact
  have hp : Passes (steered fuel app db flowId msg v.dp.id) (v.port + 1) 0 0
      (.ether v.loc "" spi (rest.length + 1) (.plain msg.packet)) _ :=
    (passes_delivery h hsuf (previous_apart hsw hsuf)).mpr rfl
  have hport : v.port + 1 ≠ v.port := by omega
  have houts := hintact _ _ _ _ hport hp
  unfold emit at houts
  by_cases hq : deliveryPort v rest = v.port + 1
  · simp [hq] at houts
  · simp [hq] at houts

theorem redirected (h : Ruled fuel app db flowId msg row c m entry spi vs)
    (hsw : (vs.map fun v ↦ v.dp.id).Nodup) (hsuf : v :: rest <:+ vs) :
    Redirected (steered fuel app db flowId msg) spi v rest := by
  intro dst src inner outs
  -- the entry of priority 8 on the switch of `v` is for the service index after that of `v`
  have hselects : ∀ {i}, SiteEntry row spi m msg.packet.ethSrc v rest
      ⟨1, 8, OFPMatch.fields (matchSpiSi spi rest.length)⟩ i →
      (steered fuel app db flowId msg v.dp.id).Selects 1
        ((Frame.ether dst src spi rest.length inner).header v.port)
        ⟨1, 8, OFPMatch.fields (matchSpiSi spi rest.length)⟩ i := by
    intro i hv
    refine ⟨⟨h.hop hsuf hv, rfl, matchSpiSi_le_header⟩, fun k' i' ha hne ↦ ?_⟩
    rcases hop_at_switch h hsw hsuf ha with rfl | hv'
    · exact Nat.succ_pos 7
    · cases hv' with
      | aware v' rest => exact absurd rfl hne
      | middle => cases ha.table
      | last => exact absurd rfl hne
      | delivery => exact (by decide : 6 < 8)
  rw [passes_nsh h]
  cases rest with
  | nil =>
    have hrun : runActions v.port 1 0 (.ether dst src spi 0 inner) [.decap, .decap] =
        ([], some inner) := by
      simp [runActions, applyAction]
    obtain ⟨md', hrun⟩ := run_flowInstructions hrun (some row.id) 2
    rw [passes_goto_iff (hselects .last) hrun, passes_normal h]
    rfl
  | cons v' rest =>
    have hrun : runActions v.port 1 0 (.ether dst src spi (rest.length + 1) inner)
        [.setField .ethDst (.str v'.loc)] =
          ([], some (.ether v'.loc src spi (rest.length + 1) inner)) := by
      simp [runActions, applyAction]
    obtain ⟨md', hrun⟩ := run_flowInstructions hrun (some row.id) 2
    rw [passes_goto_iff (hselects (.aware v' rest)) hrun, passes_normal h]
    rfl

/-- The VNFs that read NSH headers are served exactly if there is none: the frames that they send
back are redirected, but none is handed over with its headers. -/
theorem aware_served_iff (h : Activated fuel app db flowId msg row c spi vs)
    (hsw : (vs.map fun v ↦ v.dp.id).Nodup) (aware : Site → Prop) :
    ((∀ v rest, v :: rest <:+ vs → aware v → Served (steered fuel app db flowId msg) spi v rest) ↔
      ∀ v ∈ vs, ¬ aware v) ∧
    ∀ v rest, v :: rest <:+ vs → Redirected (steered fuel app db flowId msg) spi v rest := by
  obtain ⟨m, entry, hr⟩ := h.ruled
  refine ⟨⟨fun hserved v hv haware ↦ ?_, fun hnone v rest hsuf haware ↦ ?_⟩, fun v rest hsuf ↦ ?_⟩
  · obtain ⟨before, rest, rfl⟩ := List.append_of_mem hv
    have hsuf : v :: rest <:+ before ++ v :: rest := List.suffix_append _ _
    exact not_intact hr hsw hsuf (hserved v rest hsuf haware).1
  · exact absurd haware (hnone v (hsuf.subset List.mem_cons_self))
  · exact redirected hr hsw hsuf

section Demo

theorem aware_served_demo :
    (¬ ∀ v rest, v :: rest <:+ Colocation.demoSites → v.id = 1 →
      Served (steered 2 Demo.app Demo.db 1 Demo.packetIn) 6 v rest) ∧
    ∀ v rest, v :: rest <:+ Colocation.demoSites →
      Redirected (steered 2 Demo.app Demo.db 1 Demo.packetIn) 6 v rest := by
  obtain ⟨hserved, hredirected⟩ :=
    aware_served_iff Colocation.demo_activated (by decide) fun v ↦ v.id = 1
  exact ⟨fun h ↦ absurd (hserved.mp h) (by decide), hredirected⟩

/-- Switch 1 gives VNF 1 the packet of h4 without the headers that it expects. -/
theorem headers_taken_off :
    Passes (steered 2 Demo.app Demo.db 1 Demo.packetIn 1) 2 0 0
      (.ether "00:00:00:00:00:01" "00:00:00:00:00:04" 6 2 (.plain Demo.packet))
      [.port 1 (.plain Demo.packet)] ∧
    ¬ ∀ v rest, v :: rest <:+ Colocation.demoSites → v.id = 1 →
      Served (steered 2 Demo.app Demo.db 1 Demo.packetIn) 6 v rest := by
  obtain ⟨m, entry, hr⟩ := Colocation.demo_activated.ruled
  have hsw : (Colocation.demoSites.map fun v ↦ v.dp.id).Nodup := by decide
  have hsuf : Colocation.demoSites <:+ Colocation.demoSites := List.suffix_refl _
  refine ⟨(passes_delivery hr hsuf (previous_apart hsw hsuf)).mpr rfl, fun h ↦ ?_⟩
  exact not_intact hr hsw hsuf (h _ _ hsuf rfl).1

end Demo

end NshSfc.Awareness
