import NshSfc.Served
import NshSfc.Colocation

namespace NshSfc.Ports

open Library Library.Script Python Database OpenFlow RowMatch App Packets Controller Sent Handler
  Fuel Linked Served
open Sites (Site deliveryPort)

section Ports

variable {spi : Int} {vs chain : List Site} {sent : List Message}

/-- `n` hands decapsulated packets out at `port`. -/
def HandsOut (port : Int) (n : Message) : Prop :=
  ∃ dp t p m, n = (dp, .add t p m (handOut port))

/-- Every VNF has a delivery rule, and its delivery rules output at the port of the VNF. -/
def OnOwnPorts (vs : List Site) (sent : List Message) : Prop :=
  ∀ v ∈ vs, (∃ n ∈ sent, Addresses v n) ∧ ∀ n ∈ sent, Addresses v n → HandsOut v.port n

theorem handsOut_deliveryRule {w : Site} {si p q : Int} :
    HandsOut q (deliveryRule spi w si p) ↔ p = q := by
  constructor
  · rintro ⟨dp, t, p', m, heq⟩
    have hinst := (FlowMod.add.inj (Prod.mk.inj heq).2).2.2.2
    simpa [handOut, flowInstructions] using hinst
  · rintro rfl
    exact ⟨_, _, _, _, rfl⟩

theorem port_eq_head (h : ∀ w post, w :: post <:+ chain → deliveryPort w post = w.port) :
    ∀ u ∈ chain, ∀ w ∈ chain, u.port = w.port := by
  induction chain with
  | nil => simp
  | cons x rest ih =>
    have hrest := ih fun w post hsuf ↦ h w post (hsuf.trans (List.suffix_cons x rest))
    have hx : ∀ w ∈ rest, x.port = w.port := by
      intro w hw
      cases rest with
      | nil => simp at hw
      | cons y rest =>
        have hxy : y.port = x.port := h x (y :: rest) (List.suffix_refl _)
        exact hxy.symm.trans (hrest y List.mem_cons_self w hw)
    intro u hu w hw
    rcases List.mem_cons.mp hu with rfl | hu' <;> rcases List.mem_cons.mp hw with rfl | hw'
    · rfl
    · exact hx w hw'
    · exact (hx u hu').symm
    · exact hrest u hu' w hw'

theorem deliveryPort_mem {w : Site} {post : List Site} (h : w :: post <:+ chain) :
    ∃ u ∈ chain, deliveryPort w post = u.port := by
  cases post with
  | nil => exact ⟨w, h.subset List.mem_cons_self, rfl⟩
  | cons u post => exact ⟨u, h.subset (.tail _ (.head _)), rfl⟩

theorem onOwnPorts_iff (h : Delivers spi chain sent) (hsub : ∀ w ∈ chain, w ∈ vs) :
    OnOwnPorts vs sent ↔ (∀ v ∈ vs, ∃ w ∈ chain, w.dp = v.dp ∧ w.loc = v.loc) ∧
      ∀ v ∈ vs, ∀ v' ∈ vs, v.port = v'.port := by
  constructor
  · intro hown
    have hall : ∀ v ∈ vs, ∃ w ∈ chain, w.dp = v.dp ∧ w.loc = v.loc ∧
        ∃ post, w :: post <:+ chain ∧ deliveryPort w post = v.port := by
      intro v hv
      obtain ⟨⟨n, hn, haddr⟩, hout⟩ := hown v hv
      obtain ⟨w, post, si, hsuf, hdp, hloc, rfl⟩ := h.only n hn v haddr
      exact ⟨w, hsuf.subset List.mem_cons_self, hdp, hloc, post, hsuf,
        handsOut_deliveryRule.mp (hout _ hn haddr)⟩
    have hchain : ∀ u ∈ chain, ∀ w ∈ chain, u.port = w.port := by
      refine port_eq_head fun w post hsuf ↦ ?_
      obtain ⟨si, hn⟩ := h.rule w post hsuf
      have hw := hsub w (hsuf.subset List.mem_cons_self)
      exact handsOut_deliveryRule.mp ((hown w hw).2 _ hn (deliveryRule_addresses spi w si _))
    refine ⟨fun v hv ↦ ?_, fun v hv v' hv' ↦ ?_⟩
    · obtain ⟨w, hw, hdp, hloc, -⟩ := hall v hv
      exact ⟨w, hw, hdp, hloc⟩
    · obtain ⟨w, -, -, -, post, hsuf, hport⟩ := hall v hv
      obtain ⟨w', -, -, -, post', hsuf', hport'⟩ := hall v' hv'
      obtain ⟨u, hu, heq⟩ := deliveryPort_mem hsuf
      obtain ⟨u', hu', heq'⟩ := deliveryPort_mem hsuf'
      rw [← hport, ← hport', heq, heq', hchain u hu u' hu']
  · rintro ⟨hreach, hports⟩ v hv
    refine ⟨?_, fun n hn haddr ↦ ?_⟩
    · obtain ⟨w, hw, hdp, hloc⟩ := hreach v hv
      obtain ⟨pre, post, rfl⟩ := List.append_of_mem hw
      obtain ⟨si, hn⟩ := h.rule w post (List.suffix_append _ _)
      exact ⟨_, hn, addresses_add.mpr ⟨hdp, rfl, by rw [matchHop_ethDst, hloc]⟩⟩
    · obtain ⟨w, post, si, hsuf, -, -, rfl⟩ := h.only n hn v haddr
      obtain ⟨u, hu, heq⟩ := deliveryPort_mem hsuf
      exact handsOut_deliveryRule.mpr (heq.trans (hports u (hsub u hu) v hv))

end Ports

def upToZero : List Site → List Site
  | [] => []
  | v :: rest => v :: rest.takeWhile (·.id ≠ 0)

section Chain

variable {app : SfcApp} {db : Db} {spi : Int} {si : List Site → Int} {vs : List Site} {flowId : ℕ}
  {row : FlowRow} {msg : PacketIn} {c : OFPMatch}

theorem served_of_bidirectional {rest : List Site} (h : ∀ v ∈ rest, bidirectional db v) :
    served (bidirectional db) rest = rest.takeWhile (·.id ≠ 0) :=
  List.filter_eq_self.mpr fun v hv ↦ h v ((List.takeWhile_sublist _).subset hv)

theorem mem_of_upToZero {v : Site} (h : v ∈ upToZero vs) : v ∈ vs := by
  cases vs with
  | nil => exact h
  | cons u rest =>
    rcases List.mem_cons.mp h with rfl | h
    · exact List.mem_cons_self
    · exact List.mem_cons_of_mem _ ((List.takeWhile_sublist _).subset h)

theorem connected_of_addresses (hof : OfFlow app flowId msg) {r : Ctl Db} (hr : Handles app db msg r)
    {n : Message} (hn : n ∈ r.sent) {v : Site} (hv : Addresses v n) : v.dp ∈ app.datapaths := by
  obtain ⟨fuel, rfl, -⟩ := hr
  obtain ⟨p, m, i, rfl, -⟩ := hv
  obtain ⟨_, _, _, -, -, hrule⟩ := handler_installs hn rfl
  exact InstallRule.datapath_mem hrule hof.datapath

/-- Every VNF of a chain gets its packets on its own port exactly if the VNFs are attached at one
port number, their switches are connected and the loop reaches all of their locators. -/
theorem ownPorts_iff (h : Listed db spi si vs) (hknown : ∀ v ∈ vs, Known db v)
    (hb : ∀ v ∈ vs, bidirectional db v) (hof : OfFlow app flowId msg) (hc : Matched db flowId row c)
    (hspi : row.serviceId = some spi) : ∃ r, Handles app db msg r ∧
      (OnOwnPorts vs r.sent ↔ (∀ v ∈ vs, v.dp ∈ app.datapaths) ∧
        (∀ v ∈ vs, ∃ w ∈ upToZero vs, w.dp = v.dp ∧ w.loc = v.loc) ∧
        ∀ v ∈ vs, ∀ v' ∈ vs, v.port = v'.port) := by
  obtain ⟨r, hr⟩ := handles h hof hc.rowOf hspi
  refine ⟨r, hr, ?_⟩
  have hiff : (∀ v ∈ vs, v.dp ∈ app.datapaths) → (OnOwnPorts vs r.sent ↔
      (∀ v ∈ vs, ∃ w ∈ upToZero vs, w.dp = v.dp ∧ w.loc = v.loc) ∧
        ∀ v ∈ vs, ∀ v' ∈ vs, v.port = v'.port) := by
    intro hconn
    cases vs with
    | nil => simp [OnOwnPorts]
    | cons u rest =>
      obtain ⟨r', hr', -, hdel⟩ :=
        handler_delivers h hknown hconn (hb u List.mem_cons_self) hof hc hspi
      rw [served_of_bidirectional fun v hv ↦ hb v (List.mem_cons_of_mem _ hv)] at hdel
      rw [hr.unique hr']
      have hsub : ∀ w ∈ upToZero (u :: rest), w ∈ u :: rest := fun w hw ↦ mem_of_upToZero hw
      exact onOwnPorts_iff hdel hsub
  constructor
  · intro hown
    have hconn : ∀ v ∈ vs, v.dp ∈ app.datapaths := by
      intro v hv
      obtain ⟨⟨n, hn, haddr⟩, -⟩ := hown v hv
      exact connected_of_addresses hof hr hn haddr
    exact ⟨hconn, (hiff hconn).mp hown⟩
  · rintro ⟨hconn, hrest⟩
    exact (hiff hconn).mpr hrest

end Chain

theorem ownPorts_demo : ∃ r, Handles Demo.app Demo.db Demo.packetIn r ∧
    OnOwnPorts Colocation.demoSites r.sent := by
  obtain ⟨r, hr, hiff⟩ := ownPorts_iff Colocation.demo_placed.listed
    (fun _ hv ↦ Colocation.demo_placed.known hv) (by decide) Demo.packetIn_ofFlow Demo.flow1_matched rfl
  exact ⟨r, hr, hiff.mpr (by decide)⟩

def portsDb : Db where
  flows := [Demo.flow1]
  flows_id := Demo.flow1_ids
  service := [⟨6, none, 1, some 2, 2⟩, ⟨6, some 1, 2, none, 1⟩]
  vnf :=
    [Demo.forwarder 1 "forward1" 1 "00:00:00:00:00:01",
     { Demo.forwarder 2 "forward2" 2 "00:00:00:00:00:02" with inPort := some 2 }]

def portsChain : List Site :=
  [⟨1, "00:00:00:00:00:01", ⟨1, 0⟩, 1⟩, ⟨2, "00:00:00:00:00:02", ⟨2, 0⟩, 2⟩]

theorem portsChain_listed : Listed portsDb 6 (fun l ↦ l.length) portsChain where
  ids := by decide
  rows := .refl _

theorem portsChain_known : ∀ v ∈ portsChain, Known portsDb v ∧ bidirectional portsDb v ∧
    v.dp ∈ Demo.app.datapaths := by
  intro v hv
  simp only [portsChain, List.mem_cons, List.not_mem_nil, or_false] at hv
  rcases hv with rfl | rfl
  · exact ⟨⟨⟨some "True", by decide⟩, fun _ ↦ by decide⟩, by decide, by decide⟩
  · exact ⟨⟨⟨some "True", by decide⟩, fun _ ↦ by decide⟩, by decide, by decide⟩

/-- The delivery rule of the first VNF outputs at port 2, where the second one is attached. -/
theorem other_port : Listed portsDb 6 (fun l ↦ l.length) portsChain ∧
    (∀ v ∈ portsChain, Known portsDb v ∧ bidirectional portsDb v ∧ v.dp ∈ Demo.app.datapaths) ∧
    ∃ r, Handles Demo.app portsDb Demo.packetIn r ∧ ¬ OnOwnPorts portsChain r.sent := by
  refine ⟨portsChain_listed, portsChain_known, ?_⟩
  have hmatched : Matched portsDb 1 (deriveTypes Demo.flow1) Demo.flow1Match :=
    ⟨⟨rfl, Demo.flow1_common⟩, rfl⟩
  obtain ⟨r, hr, -, hdel⟩ := handler_delivers portsChain_listed (fun v hv ↦ (portsChain_known v hv).1)
    (fun v hv ↦ (portsChain_known v hv).2.2) (by decide) Demo.packetIn_ofFlow hmatched rfl
  refine ⟨r, hr, fun hown ↦ ?_⟩
  have hsub : ∀ w ∈ portsChain, w ∈ portsChain := fun w hw ↦ hw
  have hsame := ((onOwnPorts_iff hdel hsub).mp hown).2
  have hports : (1 : Int) = 2 := hsame _ (.head _) _ (.tail _ (.head _))
  cases hports

end NshSfc.Ports
