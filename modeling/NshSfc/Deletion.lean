import NshSfc.Demo
import NshSfc.Detection

namespace NshSfc.Deletion

open Library Library.Script Python Database OpenFlow RowMatch App Packets Controller Sent Handler
  Keys Switch Pipeline Async Provenance Outcomes Detection

variable {app : SfcApp} {links : Links} {db : Db} {σ σ' σ₀ σ₁ : State} {e : Event} {flowId : ℕ}
  {row : FlowRow} {m : OFPMatch}

theorem raised_by_lagging (hb : Base app db σ) (hm : Derived db flowId row m)
    (hids : Identified db.flows flowId) (hc : m.packs → Cleared σ flowId m)
    (hst : Step app links σ e σ') {msg : PacketIn} (hmsg : msg ∈ σ'.pending) (hid : msg.metadata = some flowId) :
    msg ∈ σ.pending ∨ Lagging σ msg.datapath.id m := by
  rcases raised hb hm hids hst hmsg hid with h | ⟨f, -, -, -, hit⟩
  · exact .inl h
  · right
    by_contra hlag
    exact hc (hb.packs hm hit.entry) _ ((tables_of_not_lagging hlag).trans hit.entry)

/-- No packet-in of the flow is pending, and no switch detects the flow or is about to. -/
structure Quiet (σ : State) (flowId : ℕ) (m : OFPMatch) : Prop where
  pending : ∀ msg ∈ σ.pending, msg.metadata ≠ some flowId
  entries : ∀ s, ¬ σ.switches.Holds s (detectionKey m) (detectionInst flowId)

theorem quiet_of_cleared (hc : Cleared σ flowId m) (hlag : ∀ s, ¬ Lagging σ s m)
    (hpending : ∀ msg ∈ σ.pending, msg.metadata ≠ some flowId) : Quiet σ flowId m where
  pending := hpending
  entries s hs := by
    rcases hs with hs | hs
    · exact hc s ((tables_of_not_lagging (hlag s)).trans hs)
    · exact hlag s ⟨_, hs, rfl⟩

theorem Quiet.step (h : Quiet σ flowId m) (hb : Base app db σ) (hm : Matched db flowId row m)
    (hids : Identified db.flows flowId) (hst : Step app links σ e σ') (hno : e ≠ .addFlow flowId) :
    Quiet σ' flowId m where
  pending := by
    intro msg hmsg hid
    rcases raised hb hm.toDerived hids hst hmsg hid with hmsg | ⟨f, -, -, -, hit⟩
    · exact h.pending msg hmsg hid
    · exact h.entries _ (.inl hit.entry)
  entries := by
    intro s hs
    rcases hst.holds hs with hs | ⟨n, hn, -, hadd⟩
    · exact h.entries s hs
    · exact hno (adds_detection hn hadd)

theorem not_addFlow {es : List Event} (hno : .addFlow flowId ∉ es) :
    ∀ e ∈ es, e ≠ .addFlow flowId := by
  rintro e he rfl
  exact hno he

theorem cleared_run (hb : Base app db σ₀) (hm : Matched db flowId row m)
    (hservice : ∃ spi, row.serviceId = some spi)
    (hdelete : Step app links σ₀ (.deleteFlow flowId) σ₁) {after : List Event}
    (hafter : Run (Step app links) σ₁ after σ) (hno : .addFlow flowId ∉ after) :
    Cleared σ flowId m := by
  obtain ⟨spi, hspi⟩ := hservice
  have hc₁ : Cleared σ₁ flowId m :=
    cleared_of_deletes hb hdelete (by simp) fun dp hdp ↦ delete_sent (hb.matched hm) hspi hdp
  exact (hafter.restrict (not_addFlow hno)).invariant (fun τ ↦ Cleared τ flowId m)
    (fun _ _ _ h hst ↦ h.step hst.1 hst.2) hc₁

theorem Quiet.run (h : Quiet σ flowId m) (hb : Base app db σ) (hm : Matched db flowId row m)
    (hids : Identified db.flows flowId) {rest : List Event} (hrest : Run (Step app links) σ rest σ')
    (hno : .addFlow flowId ∉ rest) : Quiet σ' flowId m :=
  ((hrest.restrict (not_addFlow hno)).invariant (fun τ ↦ Base app db τ ∧ Quiet τ flowId m)
    (fun _ _ _ hτ hst ↦ ⟨hτ.1.step hst.1, hτ.2.step hτ.1 hm hids hst.1 hst.2⟩) ⟨hb, h⟩).2

/-- After `api_delete_flow` and before the next `api_add_flow` for the flow: only a switch to which
flow-mods for the flow's detection entry are still under way raises packet-ins of the flow, and
once there is none and no packet-in of the flow is pending, the handler installs entries for other
flows only. -/
theorem deletion_final (hrow : RowOf db flowId row) (hids : Identified db.flows flowId)
    {before after : List Event} (hbefore : Run (Step app links) (start db) before σ₀)
    (hdelete : Step app links σ₀ (.deleteFlow flowId) σ₁)
    (hafter : Run (Step app links) σ₁ after σ) (hno : .addFlow flowId ∉ after) :
    (∀ spi m, row.serviceId = some spi → matchCommon row = .ok m →
      ∀ e σ', Step app links σ e σ' → ∀ msg ∈ σ'.pending, msg.metadata = some flowId →
        msg ∈ σ.pending ∨ Lagging σ msg.datapath.id m) ∧
    ((∀ msg ∈ σ.pending, msg.metadata ≠ some flowId) →
      (∀ m, matchCommon row = .ok m → ∀ s, ¬ Lagging σ s m) →
      ∀ rest τ, Run (Step app links) σ rest τ → .addFlow flowId ∉ rest →
        ∀ msg fuel τ', Step app links τ (.handle msg fuel) τ' →
          ∀ n ∈ (packetInHandler fuel app τ.db msg).sent, ∀ k i, n.2.toMod = .add k i →
            msg.metadata ≠ some flowId ∧
              ∃ r ∈ db.flows, r.id ≠ flowId ∧ InstallRule app msg (deriveTypes r) n) := by
  have hb₀ := (Base.start app db).run hbefore
  have hb := (hb₀.step hdelete).run hafter
  constructor
  · intro spi m hspi hm e σ' hst msg hmsg hid
    have hc : m.packs → Cleared σ flowId m :=
      fun hp ↦ cleared_run hb₀ ⟨⟨hrow, hm⟩, hp⟩ ⟨spi, hspi⟩ hdelete hafter hno
    exact raised_by_lagging hb ⟨hrow, hm⟩ hids hc hst hmsg hid
  · intro hpending hlag rest τ hrest hnorest msg fuel τ' hst n hn k i hadd
    have hτ := hb.run hrest
    obtain ⟨flowId', row', m, hid, hm, hrule⟩ := handler_installs hn hadd
    have hne : flowId' ≠ flowId := by
      rintro rfl
      have hm : Matched db flowId' row' m :=
        hm.of_flows (hτ.earlier.selectFlows _).symm
      obtain rfl : row = row' := Option.some.inj (hrow.symm.trans hm.rowOf)
      have hc := cleared_run hb₀ hm (InstallRule.service hrule) hdelete hafter hno
      have hquiet := (quiet_of_cleared hc (hlag m hm.common) hpending).run hb hm hids hrest hnorest
      exact hquiet.pending msg (handled_pending hst) hid
    obtain ⟨r, hr, rfl⟩ := hm.head
    obtain ⟨hr, hrid⟩ := Db.mem_selectFlows.mp (List.mem_of_head? hr)
    rw [hτ.flows] at hr
    refine ⟨fun h ↦ hne (Option.some.inj (hid.symm.trans h)), r, hr, ?_, hrule⟩
    rw [hrid]
    exact fun h ↦ hne (Int.ofNat.inj h)

section Demo

def demoOne : SfcApp where
  datapaths := [⟨4, 0⟩]
  datapaths_id := by decide

def demoAdded : State := ((start Demo.db).post (apiAddFlow demoOne Demo.db 1).sent).process 4

def demoDeleted : State :=
  ((demoAdded.post (apiDeleteFlow demoOne Demo.db 1).sent).process 4).process 4

theorem demo_not_lagging (s : Int) : ¬ Lagging demoDeleted s Demo.flow1Match := by
  have hadded : Confined demoAdded [4] :=
    ((confined_start Demo.db [4]).post (by decide +kernel)).process 4
  have hdeleted : Confined demoDeleted [4] := ((hadded.post (by decide +kernel)).process 4).process 4
  exact hdeleted.not_lagging (by decide +kernel) s Demo.flow1Match

theorem deletion_final_demo : ¬ ∃ rest τ fuel τ' n k i, Run (Step demoOne demoLinks) demoDeleted rest τ ∧
    .addFlow 1 ∉ rest ∧ Step demoOne demoLinks τ (.handle Demo.packetIn fuel) τ' ∧
    n ∈ (packetInHandler fuel demoOne τ.db Demo.packetIn).sent ∧ n.2.toMod = .add k i := by
  rintro ⟨rest, τ, fuel, τ', n, k, i, hrest, hno, hst, hn, hadd⟩
  have hbefore : Run (Step demoOne demoLinks) (start Demo.db) [.addFlow 1, .process 4] demoAdded :=
    .cons (.addFlow _ 1) (.one (.process _ 4))
  have hafter : Run (Step demoOne demoLinks) (demoAdded.post (apiDeleteFlow demoOne Demo.db 1).sent)
      [.process 4, .process 4] demoDeleted :=
    .cons (.process _ 4) (.one (.process _ 4))
  have hids : Identified Demo.db.flows 1 := by decide
  have hfinal := (deletion_final Demo.flow1_matched.rowOf hids hbefore (.deleteFlow _ 1) hafter
    (by simp)).2
  have hpending : ∀ msg ∈ demoDeleted.pending, msg.metadata ≠ some 1 := by
    intro msg hmsg
    cases hmsg
  have hlag : ∀ m, matchCommon (deriveTypes Demo.flow1) = .ok m → ∀ s, ¬ Lagging demoDeleted s m := by
    intro m hm
    obtain rfl : Demo.flow1Match = m := Except.ok.inj (Demo.flow1_common.symm.trans hm)
    exact demo_not_lagging
  exact (hfinal hpending hlag rest τ hrest hno _ fuel τ' hst n hn k i hadd).1 rfl

/-- A packet-in that is pending when the flow is deleted installs the flow again. -/
theorem demo_installed_after_delete : ∃ σ₁ σ₂,
    Run (Step Demo.app demoLinks) (start Demo.db)
      [.addFlow 1, .process 4, .enter 4 1 Demo.packet, .forward 4 1 (.plain Demo.packet), .deleteFlow 1]
      σ₁ ∧
    Step Demo.app demoLinks σ₁ (.handle Demo.packetIn 2) σ₂ ∧
    σ₁.switches.drained 4 Demo.flow1Source = none ∧
    σ₂.switches.drained 4 Demo.flow1Source = some Demo.flow1SourceInst := by
  let σ₁ : State := demoWaiting.post (apiDeleteFlow Demo.app Demo.db 1).sent
  have hpending : σ₁.pending = [] ++ Demo.packetIn :: [] := rfl
  have hrun := (demo_ready.trans demo_waiting).trans (.one (.deleteFlow demoWaiting 1))
  refine ⟨σ₁, _, hrun, .handle hpending 2, ?_, ?_⟩
  · decide +kernel
  · decide +kernel

end Demo

end NshSfc.Deletion
