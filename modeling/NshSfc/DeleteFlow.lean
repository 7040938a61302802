import NshSfc.Demo
import NshSfc.Handler
import NshSfc.Switch

namespace NshSfc.DeleteFlow

open Library Library.Script Python Database OpenFlow RowMatch App Packets Controller Sent Handler Switch

variable {app : SfcApp} {db : Db} {msg : PacketIn}

def lastKey (spi : Int) : FlowKey := ⟨1, 8, OFPMatch.fields (matchSpiSi spi 0)⟩

theorem finish_sends_last {dp : Datapath} {w : Walk} {spi : Int} (hspi : w.row.serviceId = some spi)
    (h : (finish dp w).result = .ok ()) :
    (dp, .add 1 8 (matchSpiSi spi 0) (flowInstructions [.decap, .decap] (some w.row.id) (some 3))) ∈
      (finish dp w).sent := by
  simp only [finish, hspi, intOfColumn, py_ok, Script.pure_bind] at h ⊢
  obtain ⟨⟨⟩, hsend, -⟩ := bind_result_ok.mp h
  rw [addFlow, sendMsg_of_ok hsend, send_bind_sent]
  exact List.mem_cons_self

theorem walk_sends_last {flowId : ℕ} {ethSrc : String} {fuel : ℕ} {w : Walk} {spi : Int}
    (hw : RowOf db flowId w.row) (hspi : w.row.serviceId = some spi)
    (h : (walk app db flowId ethSrc fuel w).result = .ok ()) :
    ∃ dp ∈ app.datapaths, (dp, .add 1 8 (matchSpiSi spi 0)
      (flowInstructions [.decap, .decap] (some w.row.id) (some 3))) ∈
        (walk app db flowId ethSrc fuel w).sent := by
  induction fuel generalizing w with
  | zero => cases h
  | succ fuel ih =>
    obtain ⟨r, hhop, h⟩ := bind_result_ok.mp h
    have hrow := (hop_ensures hw).result r hhop
    have hcase := hop_cases hhop
    generalize hsent : (hop app db flowId ethSrc w).sent = sent at hcase
    cases hcase with
    | finish hdp hf =>
      exact ⟨_, hdp, mem_bind_sent.mpr (.inl (hsent ▸ finish_sends_last hspi hf))⟩
    | skip n =>
      obtain ⟨dp, hdp, hm⟩ := ih (w := { w with vnfId := n }) hw hspi h
      exact ⟨dp, hdp, mem_bind_sent.mpr (.inr ⟨_, hhop, hm⟩)⟩
    | @steer dp' hdp' n w' hs =>
      have hrow : w'.row = w.row := hrow w' rfl
      obtain ⟨dp, hdp, hm⟩ := ih (hrow ▸ hw) (hrow ▸ hspi) h
      exact ⟨dp, hdp, mem_bind_sent.mpr (.inr ⟨_, hhop, hrow ▸ hm⟩)⟩

/-- A run that completes: the `try` block ends at the `break`. -/
def Completes (app : SfcApp) (db : Db) (msg : PacketIn) (fuel : ℕ) : Prop :=
  (activate fuel app db msg).result = .ok ()

theorem activate_sends_last {flowId : ℕ} (h : OfFlow app flowId msg) {fuel : ℕ}
    (hok : Completes app db msg fuel) :
    ∃ dp ∈ app.datapaths, ∃ spi is, (dp, .add 1 8 (matchSpiSi spi 0) is) ∈
      (activate fuel app db msg).sent := by
  by_cases hstop : ∀ row, (db.selectFlows flowId).head? = some row →
      ∀ m, matchCommon (deriveTypes row) = .ok m → ¬ m.packs
  · obtain ⟨e, -, hraise⟩ := activate_stopped h hstop
    rw [Completes, hraise fuel] at hok
    cases hok
  push Not at hstop
  obtain ⟨row, hrow, m, hm, hp⟩ := hstop
  obtain ⟨entry, hentry⟩ := flowMatch_ok_of_ok hm
    ((.inPort, some (.int msg.inPort)) :: ethFields (deriveTypes row))
  have heq := activate_eq h hrow hentry hm hp fuel
  have hpentry := (matchEntryPoint_packs hm hentry).mpr hp
  rw [Completes, heq] at hok
  rw [heq]
  rcases install_cases app db msg flowId (deriveTypes row) entry with
    ⟨e, -, he⟩ | ⟨vnfId, loc, dpid, inPort, spi, hspi, hf⟩
  · rw [he] at hok
    cases hok
  · rw [install_eq hspi hf, addFlow_of_packs hpentry (by simp)] at hok ⊢
    rw [send_bind_result] at hok
    rw [send_bind_sent]
    have hrowOf : RowOf db flowId (deriveTypes row) := by rw [RowOf, hrow]; rfl
    obtain ⟨dp, hdp, hlast⟩ := walk_sends_last hrowOf hspi hok
    exact ⟨dp, hdp, spi, _, List.mem_append_right _ (List.mem_cons_of_mem _ hlast)⟩

theorem handler_touches {k : FlowKey} (hk : k.table ≠ 0) {fuel : ℕ} {n : Message}
    (hn : n ∈ (packetInHandler fuel app db msg).sent) (ht : n.2.toMod.Touches k) :
    ∃ is, n.2.toMod = .add k is := by
  obtain ⟨flowId, row, m, -, -, ⟨dp, -, rfl⟩ | hrule⟩ := handler_sends hn
  · exact absurd ht.1 hk
  · obtain ⟨dp, t, p, m, a, i, g, rfl, -⟩ := InstallRule.exists_add hrule
    exact ⟨flowInstructions a i g, congrArg (Mod.add · _) ht⟩

theorem DeleteRule.not_touches {row : FlowRow} {m : Message} (h : DeleteRule app row m)
    {k : FlowKey} (hk : k.table ≠ 0) : ¬ m.2.toMod.Touches k := by
  cases h with
  | common => exact fun ht ↦ hk ht.1
  | spi => exact fun ht ↦ hk ht.1

def afterDelete (app : SfcApp) (db : Db) (flowId : ℕ) (msg : PacketIn) (fuel : ℕ) : Network :=
  ((defaultNetwork.receive (apiAddFlow app db flowId).sent).receive
    (packetInHandler fuel app db msg).sent).receive (apiDeleteFlow app db flowId).sent

def Undone (app : SfcApp) (db : Db) (flowId : ℕ) (msg : PacketIn) (fuel : ℕ) : Prop :=
  ∀ dp ∈ app.datapaths, afterDelete app db flowId msg fuel dp.id = defaultNetwork dp.id

/-- Deleting a flow never undoes its activation: both deletions name table 0, and the entries
of table 1 stay. -/
theorem delete_flow_never_undoes {flowId : ℕ} (h : OfFlow app flowId msg) {fuel : ℕ}
    (hok : Completes app db msg fuel) : ¬ Undone app db flowId msg fuel := by
  intro hundone
  obtain ⟨dp, hdp, spi, is, hm⟩ := activate_sends_last h hok
  have hafter := hundone dp hdp
  have hsome : ∃ j, (defaultNetwork.receive (apiAddFlow app db flowId).sent).receive
      (packetInHandler fuel app db msg).sent dp.id (lastKey spi) = some j := by
    rw [← handler_sent h.notRegistration] at hm
    refine Fabric.deliver_occupied (fun n hn ht ↦ ?_) (.inl ⟨is, mem_mods.mpr ⟨_, hm, rfl, rfl⟩⟩)
    obtain ⟨n', hn', -, rfl⟩ := mem_mods.mp hn
    exact handler_touches (by simp [lastKey]) hn' ht
  obtain ⟨j, hj⟩ := hsome
  have hkept : afterDelete app db flowId msg fuel dp.id (lastKey spi) = some j := by
    rw [← hj]
    refine Fabric.deliver_of_not_touches (fun m hm ↦ ?_) _
    obtain ⟨n, hn, -, rfl⟩ := mem_mods.mp hm
    obtain ⟨row, -, hrule⟩ := apiDeleteFlow_sent hn
    exact DeleteRule.not_touches hrule (by simp [lastKey])
  rw [hafter] at hkept
  have hentry := defaultTable_iff.mp hkept
  generalize hk : lastKey spi = k at hentry
  have hp := congrArg Key.priority hk
  have ht := congrArg Key.table hk
  cases hentry <;> simp [lastKey, registrationKey, nshKey, missKey] at hp ht

theorem delete_flow_never_undoes_demo : ¬ Undone Demo.app Demo.db 1 Demo.packetIn 2 :=
  delete_flow_never_undoes Demo.packetIn_ofFlow rfl

/-- On switch 2 the entry of the last VNF is still there after the deletion. -/
theorem demo_entry_survives :
    Completes Demo.app Demo.db Demo.packetIn 2 ∧ ¬ Undone Demo.app Demo.db 1 Demo.packetIn 2 := by
  have hlast : afterDelete Demo.app Demo.db 1 Demo.packetIn 2 2 (lastKey 6) ≠
      defaultNetwork 2 (lastKey 6) := by decide
  exact ⟨rfl, fun h ↦ hlast (congrFun (h ⟨2, 0⟩ (by decide)) (lastKey 6))⟩

end NshSfc.DeleteFlow
