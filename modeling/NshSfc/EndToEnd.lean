import NshSfc.ChainFrames
import NshSfc.Demo
import NshSfc.Journey

namespace NshSfc.EndToEnd

open Library Library.Script Python Database OpenFlow RowMatch App Packets Controller Sent Handler
  Keys Switch Sites SiteTables SiteFrames Chain ChainFrames Pipeline Journey

variable {fuel : ℕ} {app : SfcApp} {db : Db} {flowId : ℕ} {msg : PacketIn} {row : FlowRow}
  {c entry : OFPMatch} {m : Int → OFPMatch} {spi port : Int} {vs : List Site} {net : Surroundings}

inductive Connects (net : Surroundings) (port : Int) : Int → List Site → Prop
  | nil (s : Int) : Connects net port s []
  | cons {s : Int} {v : Site} {rest : List Site} (hv : Reaches net port v.loc v.dp.id s)
      (hrest : Connects net port v.dp.id rest) : Connects net port s (v :: rest)

/-- The VNFs return packets of the flow as packets of the flow. They may rewrite Ethernet addresses. -/
def Keeps (net : Surroundings) (port : Int) (c : OFPMatch) (vs : List Site) : Prop :=
  ∀ v ∈ vs, ∀ pkt, Returned c pkt → Returned c (net.host v.dp.id port pkt)

/-- What a packet of the flow is to go through: every VNF of the chain in order, and then out. -/
def visits (net : Surroundings) (port : Int) : Int → List Site → Packet → List Event
  | s, [], pkt => [.left s pkt]
  | _, v :: rest, pkt =>
    .handed v.dp.id port pkt :: visits net port v.dp.id rest (net.host v.dp.id port pkt)

theorem travels_carried (h : Installed fuel app db flowId msg row c m entry spi port vs) {v : Site}
    {rest : List Site} (hsuf : v :: rest <:+ vs) {s q : Int} {f : Frame}
    (hpass : ∀ o, Passes (steered fuel app db flowId msg s) q 0 0 f o ↔
      o = [.normal (.ether v.loc msg.packet.ethSrc spi (rest.length + 1) (.plain pkt))])
    (hr : Reaches net port v.loc v.dp.id s) {events : List Event} :
    Travels (steered fuel app db flowId msg) net s q f events ↔
      ∃ tail, events = .handed v.dp.id port pkt :: tail ∧
        Travels (steered fuel app db flowId msg) net v.dp.id port
          (.plain (net.host v.dp.id port pkt)) tail := by
  let frame : Frame := .ether v.loc msg.packet.ethSrc spi (rest.length + 1) (.plain pkt)
  induction hr generalizing q f with
  | @last s q' hn hq =>
    have hf : fate net s [.normal frame] = .carried v.dp.id q' frame := by simp [fate, frame, hn]
    have hd : fate net v.dp.id [.port port (.plain pkt)] = .handed port pkt := rfl
    rw [travels_carried_iff hpass hf,
      travels_handed_iff (fun o ↦ ChainFrames.passes_delivery h hsuf hq) hd]
  | @hop s s' q' hn hs _ ih =>
    have hf : fate net s [.normal frame] = .carried s' q' frame := by simp [fate, frame, hn]
    rw [travels_carried_iff hpass hf]
    exact ih fun o ↦ passes_transit h.toRuled hsuf hs

theorem travels_returned (h : Installed fuel app db flowId msg row c m entry spi port vs)
    (hkeeps : Keeps net port c vs) {v : Site} {rest : List Site} (hsuf : v :: rest <:+ vs)
    (hconn : Connects net port v.dp.id rest) {pkt : Packet} (hp : Returned c pkt)
    {events : List Event} :
    Travels (steered fuel app db flowId msg) net v.dp.id port (.plain pkt) events ↔
      events = visits net port v.dp.id rest pkt := by
  induction rest generalizing v pkt events with
  | nil => exact travels_left_iff (fun o ↦ ChainFrames.passes_returned h hsuf hp) rfl
  | cons v' rest ih =>
    obtain ⟨hr, hconn⟩ : Reaches net port v'.loc v'.dp.id v.dp.id ∧ Connects net port v'.dp.id rest := by
      cases hconn with
      | cons hv hrest => exact ⟨hv, hrest⟩
    have hsuf' : v' :: rest <:+ vs := (List.suffix_cons v _).trans hsuf
    have hp' := hkeeps v' (hsuf'.subset List.mem_cons_self) pkt hp
    rw [travels_carried h hsuf' (fun o ↦ ChainFrames.passes_returned h hsuf hp) hr]
    simp only [ih hsuf' hconn hp', visits]
    exact exists_eq_right

theorem travels_installed (h : Installed fuel app db flowId msg row c m entry spi port vs)
    (hkeeps : Keeps net port c vs) (hconn : Connects net port msg.datapath.id vs) {pkt : Packet}
    (hflow : OFPMatch.fields c ≤ pkt.fields) (hp : Returned c pkt) {events : List Event} :
    Travels (steered fuel app db flowId msg) net msg.datapath.id msg.inPort (.plain pkt) events ↔
      events = visits net port msg.datapath.id vs pkt := by
  cases hconn with
  | nil => exact absurd rfl h.ne_nil
  | @cons _ v rest hr hconn =>
    have hsuf : v :: rest <:+ v :: rest := List.suffix_refl _
    have hp' := hkeeps v List.mem_cons_self pkt hp
    rw [travels_carried h hsuf (fun o ↦ passes_source h.toRuled rfl hflow hp.ofChain) hr]
    simp only [travels_returned h hkeeps hsuf hconn hp', visits]
    exact exists_eq_right

/-- Every packet of the flow that enters at the port from which it was activated is handed to the
VNFs of the chain in order, and then leaves the switch of the last one as a plain packet. -/
theorem chain_end_to_end (h : Activation app db flowId msg row c spi port vs)
    (hfuel : vs.length ≤ fuel) (hkeeps : Keeps net port c vs)
    (hconn : Connects net port msg.datapath.id vs) {pkt : Packet}
    (hflow : OFPMatch.fields c ≤ pkt.fields)
    (hreg : ¬ OFPMatch.fields matchRegistration ≤ pkt.fields) (events : List Event) :
    Travels (steered fuel app db flowId msg) net msg.datapath.id msg.inPort (.plain pkt) events ↔
      events = visits net port msg.datapath.id vs pkt := by
  obtain ⟨m, entry, hi⟩ := h.installed hfuel
  have hp : Returned c pkt := ⟨(withoutEth_le _).trans hflow, hreg⟩
  exact travels_installed hi hkeeps hconn hflow hp

section Demo

def demoChain : List Site :=
  [⟨1, "00:00:00:00:00:01", ⟨1, 0⟩, 1⟩, ⟨2, "00:00:00:00:00:02", ⟨2, 0⟩, 1⟩]

def demoNet : Surroundings where
  next s mac :=
    match [("00:00:00:00:00:01", 1), ("00:00:00:00:00:02", 2), ("00:00:00:00:00:03", 3),
        ("00:00:00:00:00:04", 4), ("00:00:00:00:00:05", (5 : Int))].lookup mac with
    | some d =>
      if s < d then some (s + 1, 2)
      else if d < s then some (s - 1, if s = 2 then 2 else 3)
      else none
    | none => none
  host s _ pkt := pkt.withEthSrc (if s = 1 then "00:00:00:00:00:01" else "00:00:00:00:00:02")

theorem demo_deployed : Deployed Demo.app Demo.db 6 1 demoChain where
  length_le := by decide
  id_ne_zero := by decide
  rows := by decide
  bidirectional := by decide
  locator := by decide
  connected := by decide
  attachments := by decide
  ports := by decide
  switches := by decide
  locators := by decide

theorem demo_activation :
    Activation Demo.app Demo.db 1 Demo.packetIn (deriveTypes Demo.flow1) Demo.flow1Match 6 1
      demoChain where
  deployed := demo_deployed
  ne_nil := by simp [demoChain]
  ofFlow := Demo.packetIn_ofFlow
  matched := Demo.flow1_matched
  ethType := rfl
  service := rfl
  hosts := by decide

theorem demo_keeps : Keeps demoNet 1 Demo.flow1Match demoChain := by
  intro v _ pkt hp
  constructor
  · rw [demoNet, Packet.withEthSrc_fields]
    exact Match.le_set rfl hp.flow _
  · rw [demoNet, Packet.withEthSrc_fields]
    exact fun hle ↦ hp.notRegistration (Match.le_of_le_set rfl hle)

theorem demo_connects : Connects demoNet 1 4 demoChain := by
  have h21 : Reaches demoNet 1 "00:00:00:00:00:01" 1 2 := .last (q := 2) (by decide) (by decide)
  have h31 : Reaches demoNet 1 "00:00:00:00:00:01" 1 3 := .hop (q := 3) (by decide) (by decide) h21
  have h41 : Reaches demoNet 1 "00:00:00:00:00:01" 1 4 := .hop (q := 3) (by decide) (by decide) h31
  have h12 : Reaches demoNet 1 "00:00:00:00:00:02" 2 1 := .last (q := 2) (by decide) (by decide)
  exact .cons h41 (.cons h12 (.nil 2))

theorem chain_end_to_end_demo :
    Travels (steered 2 Demo.app Demo.db 1 Demo.packetIn) demoNet 4 1 (.plain Demo.packet)
      (visits demoNet 1 4 demoChain Demo.packet) :=
  (chain_end_to_end demo_activation (by decide) demo_keeps demo_connects (by decide) (by decide)
    _).mpr rfl

end Demo

end NshSfc.EndToEnd
