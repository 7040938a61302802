import NshSfc.Consumption
import NshSfc.Detection

namespace NshSfc.Settling

open Library Library.Script Python Database OpenFlow RowMatch App Packets Controller Sent Handler
  Switch Async Outcomes Detection

variable {app : SfcApp} {links : Links} {db : Db} {σ σ' : State} {e : Event} {es : List Event}
  {n : Message}

def sentIn (app : SfcApp) : Operations.State → List Operations.Op → List Message
  | _, [] => []
  | σ, op :: ops => Consumption.sent app σ.db op ++ sentIn app (Operations.step app σ op) ops

structure Connected (app : SfcApp) (σ : State) : Prop where
  pending : ∀ msg ∈ σ.pending, msg.datapath ∈ app.datapaths
  queue : Confined σ (app.datapaths.map Datapath.id)

theorem sent_connected (he : ∀ msg fuel, e = .handle msg fuel → msg.datapath ∈ app.datapaths)
    (hn : n ∈ e.sent app db) : n.1 ∈ app.datapaths := by
  cases e with
  | addFlow flowId =>
    obtain ⟨r, -, hrule⟩ := apiAddFlow_sent hn
    cases hrule with
    | detection hdp => exact hdp
  | deleteFlow flowId =>
    obtain ⟨r, -, hrule⟩ := apiDeleteFlow_sent hn
    cases hrule with
    | common hdp | spi hdp => exact hdp
  | handle msg fuel =>
    obtain ⟨flowId, row, m, -, -, ⟨dp, hdp, rfl⟩ | hrule⟩ := handler_sends hn
    · exact hdp
    · exact InstallRule.datapath_mem hrule (he msg fuel rfl)
  | process | enter | forward => cases hn

theorem Connected.start (app : SfcApp) (db : Db) : Connected app (start db) where
  pending _ h := by cases h
  queue := confined_start db _

theorem Connected.step (h : Connected app σ) (hst : Step app links σ e σ') : Connected app σ' where
  pending := by
    intro msg hmsg
    cases hst with
    | addFlow | deleteFlow | process | enter => exact h.pending msg hmsg
    | handle hpending =>
      refine h.pending msg ?_
      rw [hpending]
      exact (List.mem_append.mp hmsg).elim (List.mem_append_left _)
        fun hm ↦ List.mem_append_right _ (List.mem_cons_of_mem _ hm)
    | forward =>
      rcases List.mem_append.mp hmsg with hmsg | hmsg
      · exact h.pending msg hmsg
      · obtain ⟨hdp, -⟩ := raisedAt_of_mem hmsg
        exact hdp
  queue := by
    intro s m hm
    rcases hst.queue hm with hm | ⟨n, hn, rfl, -⟩
    · exact h.queue s m hm
    · refine List.mem_map.mpr ⟨n.1, sent_connected (fun msg fuel he ↦ ?_) hn, rfl⟩
      subst he
      exact h.pending msg (handled_pending hst)

theorem Connected.run (h : Connected app σ) (hrun : Run (Step app links) σ es σ') :
    Connected app σ' :=
  hrun.invariant _ (fun _ _ _ hτ hst ↦ hτ.step hst) h

theorem Event.sent_of_op (e : Event) (app : SfcApp) (db : Db) : e.sent app db =
    match e.op with
    | some op => Consumption.sent app db op
    | none => [] := by
  cases e <;> rfl

theorem Step.follows {c₀ : Channels Int Field Value (List Instruction)} {ms : List Message}
    (h : c₀.Follows (mods ms) σ.switches) (hst : Step app links σ e σ') :
    c₀.Follows (mods (ms ++ e.sent app σ.db)) σ'.switches := by
  rcases hst.switches with ⟨s, rfl, hs⟩ | hs
  · have hnil : (Event.process s).sent app σ.db = [] := rfl
    rw [hs, hnil, List.append_nil]
    exact h.process s
  · rw [hs, mods, List.map_append]
    exact h.post _

theorem settled_of_run (hrun : Run (Step app links) σ es σ') :
    σ'.settled = (es.filterMap Event.op).foldl (Operations.step app) σ.settled := by
  refine hrun.simulates fun σ e σ' hst ↦ ?_
  rw [hst.refines]
  cases e.op <;> rfl

theorem follows_of_run {c₀ : Channels Int Field Value (List Instruction)} {ms : List Message}
    (h : c₀.Follows (mods ms) σ.switches) (hrun : Run (Step app links) σ es σ') :
    c₀.Follows (mods (ms ++ sentIn app σ.settled (es.filterMap Event.op))) σ'.switches := by
  induction hrun generalizing ms with
  | nil σ =>
    rw [List.filterMap_nil, sentIn, List.append_nil]
    exact h
  | @cons σ τ υ e es hst _ ih =>
    have hτ := ih (Step.follows h hst)
    rw [hst.refines, Event.sent_of_op, List.append_assoc] at hτ
    cases hop : e.op with
    | none =>
      rw [hop] at hτ
      rwa [List.filterMap_cons_none hop]
    | some op =>
      rw [hop] at hτ
      rwa [List.filterMap_cons_some hop, sentIn]

theorem process_run (app : SfcApp) (links : Links) (σ : State) (ss : List Int) :
    Run (Step app links) σ (ss.map Event.process) (ss.foldl State.process σ) := by
  induction ss generalizing σ with
  | nil => exact .nil σ
  | cons s ss ih => exact .cons (.process σ s) (ih _)

theorem op_of_process (ss : List Int) : (ss.map Event.process).filterMap Event.op = [] := by
  induction ss with
  | nil => rfl
  | cons s ss ih => exact ih

theorem process_switches (σ : State) (ss : List Int) :
    (ss.foldl State.process σ).switches = ss.foldl Channels.process σ.switches := by
  induction ss generalizing σ with
  | nil => rfl
  | cons s ss ih => exact ih _

theorem Connected.settles (h : Connected app σ) (links : Links) : ∃ (ss : List Int) (σ' : State),
    Run (Step app links) σ (ss.map Event.process) σ' ∧ σ'.switches.Idle ∧
      σ'.switches.tables = σ.switches.drained := by
  have hids : ∀ s, σ.switches.queue s ≠ [] → s ∈ app.datapaths.map Datapath.id := by
    intro s hs
    obtain ⟨m, ms, hq⟩ := List.exists_cons_of_ne_nil hs
    exact h.queue s m (hq ▸ List.mem_cons_self)
  obtain ⟨ss, hidle⟩ := Channels.exists_idle hids
  have hdrained := σ.switches.drained_foldl_process ss
  rw [← process_switches] at hidle hdrained
  exact ⟨ss, _, process_run app links σ ss, hidle, hidle.drained.symm.trans hdrained⟩

/-- However requests, packet-ins, flow-mods and frames interleave: the database and the tables, once
the queues are processed, are those of the operations done one after the other; every switch has
processed a first part of what they send to it, in order, and the rest waits; and processing the rest
is all that is left to do. -/
theorem run_refines_operations (hrun : Run (Step app links) (start db) es σ) :
    σ.settled = (es.filterMap Event.op).foldl (Operations.step app) (start db).settled ∧
    (start db).switches.Follows (mods (sentIn app (start db).settled (es.filterMap Event.op)))
      σ.switches ∧
    ∃ (ss : List Int) (σ' : State), Run (Step app links) σ (ss.map Event.process) σ' ∧
      σ'.switches.Idle ∧ σ'.switches.tables =
        ((es.filterMap Event.op).foldl (Operations.step app) (start db).settled).tables := by
  have hsettled := settled_of_run hrun
  have hstart : (start db).switches.Follows (mods []) (start db).switches := .refl _
  refine ⟨hsettled, follows_of_run hstart hrun, ?_⟩
  rw [← hsettled]
  exact ((Connected.start app db).run hrun).settles links

theorem run_refines_operations_demo : ∃ (ss : List Int) (σ' : State),
    Run (Step Demo.app demoLinks) demoReady (ss.map Event.process) σ' ∧ σ'.switches.Idle ∧
      σ'.switches.tables =
        (Operations.step Demo.app ⟨Demo.db, (start Demo.db).switches.drained⟩ (.addFlow 1)).tables :=
  (run_refines_operations demo_ready).2.2

end NshSfc.Settling
