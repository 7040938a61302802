import NshSfc.Demo
import NshSfc.Switch

namespace NshSfc.LastPacketIn

open Library Library.Script Python Database OpenFlow RowMatch App Packets Controller Sent Fuel

variable {app : SfcApp} {db : Db}

/-- Two flow-mods to one switch that write the same key or clear the same keys. -/
inductive SameSlot : Message → Message → Prop
  | add (dp : Datapath) (t p : ℕ) (m : OFPMatch) (is is' : List Instruction) :
      SameSlot (dp, .add t p m is) (dp, .add t p m is')
  | delete (dp : Datapath) (t : ℕ) (m : OFPMatch) : SameSlot (dp, .delete t m) (dp, .delete t m)

theorem SameSlot.refl (m : Message) : SameSlot m m := by
  obtain ⟨dp, m⟩ := m
  cases m with
  | add t p m is => exact .add dp t p m is is
  | delete t m => exact .delete dp t m

theorem SameSlot.id_eq {m n : Message} (h : SameSlot m n) : m.1.id = n.1.id := by cases h <;> rfl

theorem SameSlot.touches {m n : Message} (h : SameSlot m n) {k : FlowKey}
    (hm : m.2.toMod.Touches k) : n.2.toMod.Touches k := by cases h <;> exact hm

theorem addFlow_parallel (dp : Datapath) (priority : ℕ) (m : OFPMatch) (a b : List Action)
    (tableId : ℕ) (metadata : Option Int) (gotoId : Option ℕ) :
    Parallel SameSlot (addFlow dp priority m a tableId metadata gotoId)
      (addFlow dp priority m b tableId metadata gotoId) := by
  have hpacks : FlowMod.packs (.add tableId priority m (flowInstructions a metadata gotoId)) =
      FlowMod.packs (.add tableId priority m (flowInstructions b metadata gotoId)) := by
    simp only [FlowMod.packs, flowInstructions_packs_congr a b]
  by_cases hp : FlowMod.packs (.add tableId priority m (flowInstructions a metadata gotoId))
  · rw [addFlow, addFlow, sendMsg_of_packs hp, sendMsg_of_packs (hpacks ▸ hp)]
    exact .send (.add ..)
  · rw [addFlow, addFlow, sendMsg_of_not_packs hp, sendMsg_of_not_packs (hpacks ▸ hp)]
    exact .refl SameSlot.refl _

theorem steer_parallel (flowId : ℕ) (ethSrc ethSrc' : String) (dp : Datapath) (w : Walk)
    (nextVnfId : Int) :
    Parallel SameSlot (steer db flowId ethSrc dp w nextVnfId)
      (steer db flowId ethSrc' dp w nextVnfId) := by
  unfold steer
  refine .bind (.refl SameSlot.refl _) fun ⟨locatorAddr, dpid, inPort2⟩ _ ↦ ?_
  refine .bind (.refl SameSlot.refl _) fun currentSi _ ↦ ?_
  refine .bind (.refl SameSlot.refl _) fun spi _ ↦ ?_
  refine .bind (.refl SameSlot.refl _) fun loc _ ↦ ?_
  refine .bind (.refl SameSlot.refl _) fun _ _ ↦ ?_
  refine .bind (.refl SameSlot.refl _) fun row _ ↦ ?_
  refine .bind (.refl SameSlot.refl _) fun m _ ↦ ?_
  refine .bind (.refl SameSlot.refl _) fun spi' _ ↦ ?_
  exact .bind (addFlow_parallel ..) fun _ _ ↦ .refl SameSlot.refl _

theorem hop_parallel (flowId : ℕ) (ethSrc ethSrc' : String) (w : Walk) :
    Parallel SameSlot (hop app db flowId ethSrc w) (hop app db flowId ethSrc' w) := by
  unfold hop
  refine .bind (.refl SameSlot.refl _) fun dp _ ↦ ?_
  refine .bind (.refl SameSlot.refl _) fun nextVnfId _ ↦ ?_
  split
  · refine .bind (.refl SameSlot.refl _) fun bidirectional _ ↦ ?_
    split
    · exact .bind (steer_parallel ..) fun _ _ ↦ .refl SameSlot.refl _
    · exact .refl SameSlot.refl _
  · exact .refl SameSlot.refl _

theorem walk_parallel (flowId : ℕ) (ethSrc ethSrc' : String) (fuel : ℕ) (w : Walk) :
    Parallel SameSlot (walk app db flowId ethSrc fuel w) (walk app db flowId ethSrc' fuel w) := by
  induction fuel generalizing w with
  | zero => exact .refl SameSlot.refl _
  | succ fuel ih =>
    refine .bind (hop_parallel ..) fun w' _ ↦ ?_
    cases w' with
    | none => exact .refl SameSlot.refl _
    | some w' => exact ih w'

theorem firstVnf_congr {msg msg' : PacketIn} (h : isRegistration msg = false)
    (h' : isRegistration msg' = false) (serviceId : Option Int) :
    firstVnf db msg serviceId = firstVnf db msg' serviceId := by simp [firstVnf, h, h']

theorem install_covered {msg msg' : PacketIn} (h : isRegistration msg = false)
    (h' : isRegistration msg' = false) {flowId : ℕ} {row : FlowRow} {entry entry' : OFPMatch}
    (hp : entry.packs) (hp' : entry'.packs) {fuel : ℕ} {m : Message} (hm : m ∈ (install fuel app db msg flowId row entry).sent) :
    (∃ is, m = (msg.datapath, .add 0 8 entry is)) ∨
      ∃ n ∈ (install fuel app db msg' flowId row entry').sent, SameSlot m n := by
  rcases install_cases app db msg flowId row entry with
    ⟨e, -, he⟩ | ⟨vnfId, loc, dpid, inPort, spi, hspi, hf⟩
  · simp [he] at hm
  rw [install_eq hspi hf, addFlow_of_packs hp (by simp), send_bind_sent, List.mem_cons] at hm
  rcases hm with rfl | hm
  · exact .inl ⟨_, rfl⟩
  · obtain ⟨n, hn, hmn⟩ :=
      (walk_parallel flowId msg.packet.ethSrc msg'.packet.ethSrc fuel _).exists_of_mem hm
    refine .inr ⟨n, ?_, hmn⟩
    rw [install_eq hspi (firstVnf_congr h h' _ ▸ hf), addFlow_of_packs hp' (by simp), send_bind_sent]
    exact List.mem_cons_of_mem _ hn

theorem activate_covered {msg msg' : PacketIn} {flowId : ℕ} (h : OfFlow app flowId msg)
    (h' : OfFlow app flowId msg') {fuel : ℕ} {m : Message}
    (hm : m ∈ (activate fuel app db msg).sent) {k : FlowKey} (hk : m.2.toMod.Touches k) :
    ∃ n ∈ (activate fuel app db msg').sent, n.1.id = m.1.id ∧ n.2.toMod.Touches k := by
  by_cases hstop : ∀ row, (db.selectFlows flowId).head? = some row →
      ∀ m, matchCommon (deriveTypes row) = .ok m → ¬ m.packs
  · obtain ⟨e, -, hraise⟩ := activate_stopped h hstop
    rw [hraise fuel] at hm
    cases hm
  push Not at hstop
  obtain ⟨row, hrow, c, hc, hp⟩ := hstop
  obtain ⟨entry, he⟩ := flowMatch_ok_of_ok hc
    ((.inPort, some (.int msg.inPort)) :: ethFields (deriveTypes row))
  obtain ⟨entry', he'⟩ := flowMatch_ok_of_ok hc
    ((.inPort, some (.int msg'.inPort)) :: ethFields (deriveTypes row))
  have hentry := (matchEntryPoint_packs hc he).mpr hp
  have hentry' := (matchEntryPoint_packs hc he').mpr hp
  rw [activate_eq h hrow he hc hp] at hm
  rw [activate_eq h' hrow he' hc hp]
  simp only [List.mem_append, List.mem_map] at hm ⊢
  rcases hm with ⟨dp, hdp, rfl⟩ | hm
  · exact ⟨_, .inl ⟨dp, hdp, rfl⟩, rfl, hk⟩
  rcases install_covered h.notRegistration h'.notRegistration hentry hentry' hm with
    ⟨is, rfl⟩ | ⟨n, hn, hmn⟩
  · -- the source entry of the first run falls to the deletions of the second
    refine ⟨_, .inl ⟨msg.datapath, h.datapath, rfl⟩, rfl, ?_⟩
    have hkey : (⟨0, 8, OFPMatch.fields entry⟩ : FlowKey) = k := hk
    subst hkey
    refine ⟨rfl, ?_⟩
    rw [matchEntryPoint_fields hc he]
    exact Match.le_set (matchCommon_inPort hc) le_rfl _
  · exact ⟨n, .inr hn, hmn.id_eq.symm, hmn.touches hk⟩

/-- The tables after two packet-ins of one flow are the tables after the second alone. -/
theorem last_packet_in_wins {msg msg' : PacketIn} {flowId : ℕ} (h : OfFlow app flowId msg)
    (h' : OfFlow app flowId msg') {r r' : Ctl Db} (hr : Handles app db msg r)
    (hr' : Handles app db msg' r') (T : Network) :
    (T.receive r.sent).receive r'.sent = T.receive r'.sent := by
  obtain ⟨fuel, rfl, hends⟩ := hr
  obtain ⟨fuel', rfl, hends'⟩ := hr'
  rw [← handler_add hends fuel', ← handler_add hends' fuel, Nat.add_comm fuel' fuel]
  rw [handler_sent h.notRegistration, handler_sent h'.notRegistration]
  apply Fabric.deliver_deliver_of_covered
  intro s k m hm hk
  obtain ⟨n, hn, rfl, rfl⟩ := mem_mods.mp hm
  obtain ⟨n', hn', hid, hk'⟩ := activate_covered h h' hn hk
  exact ⟨n'.2.toMod, mem_mods.mpr ⟨n', hn', hid, rfl⟩, hk'⟩

theorem last_packet_in_wins_demo :
    (Switch.defaultNetwork.receive
      (packetInHandler 2 Demo.app Demo.db Demo.packetInElsewhere).sent).receive
      (packetInHandler 2 Demo.app Demo.db Demo.packetIn).sent =
    Switch.defaultNetwork.receive (packetInHandler 2 Demo.app Demo.db Demo.packetIn).sent := by
  have h : Handles Demo.app Demo.db Demo.packetInElsewhere
      (packetInHandler 2 Demo.app Demo.db Demo.packetInElsewhere) :=
    ⟨2, rfl, ends_of_ok (a := Demo.db) rfl⟩
  have h' : Handles Demo.app Demo.db Demo.packetIn (packetInHandler 2 Demo.app Demo.db Demo.packetIn) :=
    ⟨2, rfl, ends_of_ok (a := Demo.db) rfl⟩
  exact last_packet_in_wins Demo.packetInElsewhere_ofFlow Demo.packetIn_ofFlow h h' _

end NshSfc.LastPacketIn
