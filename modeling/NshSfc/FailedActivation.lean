import NshSfc.Demo
import NshSfc.Handler
import NshSfc.Switch

namespace NshSfc.FailedActivation

open Library Library.Script Python Database OpenFlow RowMatch App Packets Controller Sent Handler
  Switch

variable {app : SfcApp} {db : Db} {msg : PacketIn} {flowId : ℕ}

def firstWalk (db : Db) (row : FlowRow) (vnfId : Int) (loc : String) (dpid inPort : Option Int) :
    Walk where
  vnfId := vnfId
  dpid := dpid
  inPort := inPort
  lastSi := (db.selectVnfIds row.serviceId).length
  lastLoc := loc
  row := row

def sourceRule (db : Db) (msg : PacketIn) (row : FlowRow) (entry : OFPMatch) (spi : Int)
    (loc : String) : Message :=
  (msg.datapath, .add 0 8 entry (flowInstructions (encapActions spi
    (db.selectVnfIds row.serviceId).length loc msg.packet.ethSrc) none (some 3)))

/-- What a handler run that stops with `e` leaves of the tables `T`. -/
inductive Left (fuel : ℕ) (app : SfcApp) (db : Db) (msg : PacketIn) (flowId : ℕ) (e : PyError)
    (T : Network) : Network → Prop
  | untouched (hnot : ¬ ∃ row m, Matched db flowId row m) : Left fuel app db msg flowId e T T
  | deleted {row : FlowRow} {m : OFPMatch} (hm : Matched db flowId row m)
      (hnot : ¬ FirstFound db msg row) :
      Left fuel app db msg flowId e T (T.receive (deletions app m))
  | halfInstalled {row : FlowRow} {m entry : OFPMatch} (hm : Matched db flowId row m)
      (hentry : matchEntryPoint msg.inPort row = .ok entry) {vnfId spi : Int} {loc : String}
      {dpid inPort : Option Int} (hspi : row.serviceId = some spi)
      (hfirst : (firstVnf db msg row.serviceId).result = .ok (vnfId, some loc, dpid, inPort))
      {rules : List Message} (hwalk : walk app db flowId msg.packet.ethSrc fuel
        (firstWalk db row vnfId loc dpid inPort) = ⟨rules, .error (.raised e)⟩)
      (hrules : ∀ n ∈ rules, ChainRule app msg.packet.ethSrc row n) :
      Left fuel app db msg flowId e T
        (T.receive (deletions app m ++ sourceRule db msg row entry spi loc :: rules))

theorem left_of_error (h : OfFlow app flowId msg) {fuel : ℕ} {e : PyError}
    (he : (activate fuel app db msg).result = .error (.raised e)) (T : Network) :
    Left fuel app db msg flowId e T (T.receive (packetInHandler fuel app db msg).sent) := by
  by_cases hmatched : ∃ row m, Matched db flowId row m
  swap
  · rw [sent_of_not_matched h hmatched]
    exact .untouched hmatched
  obtain ⟨row, m, hm⟩ := hmatched
  by_cases hf : FirstFound db msg row
  swap
  · rw [sent_of_not_found h hm hf]
    exact .deleted hm hf
  obtain ⟨entry, hentry⟩ := hm.exists_entry msg.inPort
  have hp := (matchEntryPoint_packs hm.common hentry).mpr hm.packs
  obtain ⟨r, hr, rfl⟩ := hm.head
  obtain ⟨vnfId, loc, dpid, inPort, spi, hspi, hfirst⟩ := hf
  rw [sent_eq h hm hentry, install_eq hspi hfirst, addFlow_of_packs hp (by simp), send_bind_sent]
  rw [activate_eq h hr hentry hm.common hm.packs, install_eq hspi hfirst,
    addFlow_of_packs hp (by simp), send_bind_result] at he
  exact .halfInstalled hm hentry hspi hfirst (Script.ext rfl he) (walk_ensures fuel hm.rowOf).sent

theorem no_detection (h : OfFlow app flowId msg) {row : FlowRow} {m : OFPMatch}
    (hm : Matched db flowId row m) (fuel : ℕ) (T : Network) {dp : Datapath}
    (hdp : dp ∈ app.datapaths) (id : Int) :
    T.receive (packetInHandler fuel app db msg).sent dp.id ⟨0, 8, OFPMatch.fields m⟩ ≠
      some (detectionInst id) := by
  intro hsome
  obtain ⟨entry, hentry⟩ := hm.exists_entry msg.inPort
  have hsent := sent_eq h hm hentry fuel
  have hinstall : Ensures (InstallRule app msg row) (install fuel app db msg flowId row entry)
      fun _ ↦ True := install_ensures fuel hm.rowOf hentry
  rcases receive_eq_some hsome with ⟨n, hn, -, hadd⟩ | ⟨-, hkeep⟩
  · rw [hsent] at hn
    exact InstallRule.ne_detection (hinstall.sent n (mem_of_add hn hadd)) hadd id rfl
  · refine hkeep (dp, .delete 0 m) ?_ rfl ⟨rfl, le_rfl⟩
    rw [hsent]
    exact List.mem_append_left _ (mem_deletions.mpr ⟨dp, hdp, rfl⟩)

end NshSfc.FailedActivation
