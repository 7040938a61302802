import NshSfc.Pipeline
import NshSfc.SiteTables

namespace NshSfc.SiteFrames

open Library Library.Script Python Database OpenFlow RowMatch App Packets Controller Sent Handler
  Keys Switch Sites SiteTables Pipeline

/-- The packet that activated the flow is one of its packets and came from a port to which no VNF
of the chain is attached. Port numbers start at 1. -/
structure Rooted (msg : PacketIn) (c : OFPMatch) (vs : List Site) : Prop where
  flow : OFPMatch.fields c ≤ msg.packet.fields
  inPort : msg.inPort ≠ 0
  port : ∀ v ∈ vs, v.port ≠ 0
  apart : ∀ v ∈ vs, v.attachment ≠ (msg.datapath.id, msg.inPort)

/-- The port of `v` is told apart from that of the source entry and from those of the other VNFs. -/
structure Own (msg : PacketIn) (vs : List Site) (v : Site) : Prop where
  source : v.dp.id = msg.datapath.id → msg.inPort ≠ 0 ∧ msg.inPort ≠ v.port
  others : ∀ u ∈ vs, u.dp.id = v.dp.id → u ≠ v → u.port ≠ 0

theorem Rooted.own {msg : PacketIn} {c : OFPMatch} {vs : List Site} (h : Rooted msg c vs) {v : Site}
    (hv : v ∈ vs) : Own msg vs v where
  source hs := ⟨h.inPort, fun hp ↦ h.apart v hv (Prod.ext hs hp.symm)⟩
  others u hu _ _ := h.port u hu

/-- A packet of the flow with any Ethernet addresses, as a VNF may send it. -/
structure OfChain (c : OFPMatch) (pkt : Packet) : Prop where
  flow : withoutEth (OFPMatch.fields c) ≤ pkt.fields
  notRegistration : ¬ OFPMatch.fields matchRegistration ≤ pkt.fields

def onward (src : String) (spi : Int) (inner : Frame) : List Site → Frame
  | [] => inner
  | v :: rest => .ether v.loc src spi (rest.length + 1) inner

variable {fuel : ℕ} {app : SfcApp} {db : Db} {flowId : ℕ} {msg : PacketIn} {row : FlowRow}
  {c entry : OFPMatch} {m : Int → OFPMatch} {spi : Int} {vs : List Site} {s q : Int}
  {md : BitVec 64} {outs : List Out}

theorem Rooted.ofChain (h : Rooted msg c vs) (hof : OfFlow app flowId msg) :
    OfChain c msg.packet := by
  refine ⟨(withoutEth_le _).trans h.flow, fun hle ↦ ?_⟩
  have hdst : msg.packet.ethDst = "11:12:13:14:15:16" := by
    simpa [Packet.fields] using hle .ethDst _ rfl
  have htype : msg.packet.ethType = 0x0800 := by simpa [Packet.fields] using hle .ethType _ rfl
  have hproto : msg.packet.ipProto = some 17 := by simpa [Packet.fields] using hle .ipProto _ rfl
  obtain ⟨ip, hip, haddr⟩ : ∃ ip, msg.packet.ipv4 = some ip ∧ ip.dst = 0x0A0000FE := by
    simpa [Packet.fields] using hle .ipv4Dst _ rfl
  obtain ⟨p, hudp⟩ : ∃ p, msg.packet.udp = some (p, 60000) := by
    simpa [Packet.fields] using hle .udpDst _ rfl
  have hreg : isRegistration msg = true := by
    simp [isRegistration, hof.tableId, hdst, htype, hproto, hip, haddr, hudp]
  rw [hof.notRegistration] at hreg
  cases hreg

section Nsh

variable {dst src : String} {spi' si : Int} {f : Frame}

theorem nsh_selects (h : Ruled fuel app db flowId msg row c m entry spi vs) (dst src : String)
    (spi' si : Int) (f : Frame) (s q : Int) :
    (steered fuel app db flowId msg s).Selects 0 ((Frame.ether dst src spi' si f).header q) nshKey
      [.applyActions [], .gotoTable 1] := by
  refine ⟨⟨h.default_kept .nsh (by decide) s, rfl, matchNsh_le_header⟩, fun k i ha hne ↦ ?_⟩
  have htable := ha.table
  cases h.entry_of ha.entry with
  | default hd =>
    cases hd with
    | registration =>
      have htype := ha.fields .ethType (.int 0x0800) rfl
      simp at htype
    | nsh => exact absurd rfl hne
    | miss0 => exact Nat.succ_pos 8
    | _ => cases htable
  | source => exact Nat.lt_succ_self 8
  | hop hsuf hs hv =>
    cases hv with
    | middle => exact (by decide : 6 < 9)
    | _ => cases htable

theorem normal_selects (h : Ruled fuel app db flowId msg row c m entry spi vs) (f : Frame)
    (s q : Int) : (steered fuel app db flowId msg s).Selects 3 (f.header q) (missKey 3)
      [.applyActions [.output .normal]] := by
  refine ⟨⟨h.default_kept .miss3 (by decide) s, rfl, bot_le⟩, fun k i ha hne ↦ ?_⟩
  have htable := ha.table
  cases h.entry_of ha.entry with
  | default hd =>
    cases hd with
    | miss3 => exact absurd rfl hne
    | _ => cases htable
  | source => cases htable
  | hop hsuf hs hv => cases hv <;> cases htable

theorem passes_normal (h : Ruled fuel app db flowId msg row c m entry spi vs) {f : Frame} :
    Passes (steered fuel app db flowId msg s) q 3 md f outs ↔ outs = [.normal f] :=
  passes_stop_iff (normal_selects h f s q) rfl

theorem passes_nsh (h : Ruled fuel app db flowId msg row c m entry spi vs) :
    Passes (steered fuel app db flowId msg s) q 0 md (.ether dst src spi' si f) outs ↔
      Passes (steered fuel app db flowId msg s) q 1 md (.ether dst src spi' si f) outs :=
  passes_goto_iff (nsh_selects h dst src spi' si f s q) rfl

inductive Toward (T : SwitchTable) (s q : Int) (vs : List Site) (v : Site) (rest : List Site)
    (src : String) (spi : Int) (f : Frame) : List Out → Prop
  | transit (hs : v.dp.id ≠ s) :
      Toward T s q vs v rest src spi f [.normal (.ether v.loc src spi (rest.length + 1) f)]
  | aware {u : Site} (hsuf : u :: v :: rest <:+ vs) (hs : u.dp.id = s) :
      Toward T s q vs v rest src spi f [.normal (.ether v.loc src spi (rest.length + 1) f)]
  | delivery (hs : v.dp.id = s) {i : List Instruction}
      (hit : T.Hits 1 ((Frame.ether v.loc src spi (rest.length + 1) f).header q)
        ⟨1, 6, OFPMatch.fields (matchHop v.loc spi (rest.length + 1))⟩ i) :
      Toward T s q vs v rest src spi f (emit q 1 0 f (.phys (deliveryPort v rest)))

section Toward

variable {v : Site} {rest : List Site}

theorem toward_applies (h : Ruled fuel app db flowId msg row c m entry spi vs)
    (hsuf : v :: rest <:+ vs) {k : FlowKey} {i : List Instruction}
    (ha : (steered fuel app db flowId msg s).Applies 1
      ((Frame.ether v.loc src spi (rest.length + 1) f).header q) k i) :
    (k = missKey 1 ∧ i = [.applyActions [], .gotoTable 3]) ∨
    (∃ u, u :: v :: rest <:+ vs ∧ u.dp.id = s ∧
      k = ⟨1, 8, OFPMatch.fields (matchSpiSi spi (rest.length + 1))⟩ ∧
      i = flowInstructions [.setField .ethDst (.str v.loc)] (some row.id) (some 3)) ∨
    (v.dp.id = s ∧ k = ⟨1, 6, OFPMatch.fields (matchHop v.loc spi (rest.length + 1))⟩ ∧
      i = flowInstructions [.decap, .decap, .output (.phys (deliveryPort v rest))] (some row.id)
        none) := by
  have htable := ha.table
  have hindex : ∀ {x : Site} {xs : List Site}, x :: xs <:+ vs →
      nshSi (xs.length + 1) = xs.length + 1 := nshSi_of_suffix h.placed.length_le
  have hsi : ∀ {n}, k.fields .nshSi = some (.int n) → (rest.length + 1 : Int) = n := by
    intro n hn
    rw [← hindex hsuf]
    simpa using ha.fields .nshSi _ hn
  cases h.entry_of ha.entry with
  | default hd =>
    cases hd with
    | miss1 => exact .inl ⟨rfl, rfl⟩
    | _ => cases htable
  | source => cases htable
  | @hop u us hsuf' hs k i hv =>
    cases hv with
    | aware v' rest' =>
      have hsuf'' : v' :: rest' <:+ vs := (List.suffix_cons u _).trans hsuf'
      have hn := hsi (matchSpiSi_nshSi spi _)
      have hlen : (rest.length : Int) = rest'.length := by simpa [hindex hsuf''] using hn
      obtain ⟨rfl, rfl⟩ := suffix_cons_inj hsuf hsuf'' hlen
      exact .inr (.inl ⟨u, hsuf', hs, rfl, rfl⟩)
    | middle => cases htable
    | last =>
      have hn : (rest.length + 1 : Int) = 0 := hsi (matchSpiSi_nshSi spi 0)
      omega
    | delivery us =>
      have hn := hsi (matchHop_nshSi u.loc spi _)
      have hlen : (rest.length : Int) = us.length := by simpa [hindex hsuf'] using hn
      obtain ⟨rfl, rfl⟩ := suffix_cons_inj hsuf hsuf' hlen
      exact .inr (.inr ⟨hs, rfl, rfl⟩)

theorem run_aware (md : BitVec 64) (q spi si : Int) (dst dst' src : String) (f : Frame) :
    runActions q 1 md (.ether dst src spi si f) [.setField .ethDst (.str dst')] =
      ([], some (.ether dst' src spi si f)) := by
  simp [runActions, applyAction]

theorem run_delivery (md : BitVec 64) (q spi si p : Int) (dst src : String) (f : Frame) :
    runActions q 1 md (.ether dst src spi si f) [.decap, .decap, .output (.phys p)] =
      (emit q 1 0 f (.phys p), some f) := by
  simp [runActions, applyAction, emit]

theorem miss1_applies (h : Ruled fuel app db flowId msg row c m entry spi vs) (f : Frame)
    (s q : Int) : (steered fuel app db flowId msg s).Applies 1 (f.header q) (missKey 1)
      [.applyActions [], .gotoTable 3] :=
  ⟨h.default_kept .miss1 (by decide) s, rfl, bot_le⟩

theorem toward_of_passes (h : Ruled fuel app db flowId msg row c m entry spi vs)
    (hsuf : v :: rest <:+ vs) (hp : Passes (steered fuel app db flowId msg s) q 0 md
      (.ether v.loc src spi (rest.length + 1) f) outs) :
    Toward (steered fuel app db flowId msg s) s q vs v rest src spi f outs := by
  rcases passes_hits ((passes_nsh h).mp hp) with ⟨-, hnone⟩ | ⟨k, i, hit, hafter⟩
  · exact absurd (miss1_applies h _ s q) (hnone _ _)
  rcases toward_applies h hsuf hit.toApplies with
    ⟨rfl, rfl⟩ | ⟨u, hsuf', hs, rfl, rfl⟩ | ⟨hs, rfl, rfl⟩
  · obtain ⟨outs', rfl, hrest⟩ := hafter
    obtain rfl := (passes_normal h).mp hrest
    by_cases hs : v.dp.id = s
    · -- the delivery rule of `v` has a higher priority
      subst hs
      have hle := hit.top _ _ ⟨h.hop hsuf (.delivery rest), rfl, matchHop_le_header⟩
      exact absurd hle (Nat.not_succ_le_zero 5)
    · exact .transit hs
  · obtain ⟨md', hrun⟩ := run_flowInstructions
      (run_aware md q spi (rest.length + 1) v.loc v.loc src f) (some row.id) 2
    rw [hrun] at hafter
    obtain ⟨outs', rfl, hrest⟩ := hafter
    obtain rfl := (passes_normal h).mp hrest
    exact .aware hsuf' hs
  · rw [run_flowInstructions_last (run_delivery md q spi _ _ _ src f)] at hafter
    obtain rfl := hafter
    exact .delivery hs hit

theorem passes_transit (h : Ruled fuel app db flowId msg row c m entry spi vs)
    (hsuf : v :: rest <:+ vs) (hs : s ≠ v.dp.id) :
    Passes (steered fuel app db flowId msg s) q 0 md
      (.ether v.loc src spi (rest.length + 1) f) outs ↔
        outs = [.normal (.ether v.loc src spi (rest.length + 1) f)] := by
  constructor
  · intro hp
    cases toward_of_passes h hsuf hp with
    | transit => rfl
    | aware => rfl
    | delivery hs' => exact absurd hs'.symm hs
  · rintro rfl
    rw [passes_nsh h]
    by_cases haware : ∃ u, u :: v :: rest <:+ vs ∧ u.dp.id = s
    · obtain ⟨u, hsuf', rfl⟩ := haware
      have hit : (steered fuel app db flowId msg u.dp.id).Hits 1
          ((Frame.ether v.loc src spi (rest.length + 1) f).header q)
          ⟨1, 8, OFPMatch.fields (matchSpiSi spi (rest.length + 1))⟩
          (flowInstructions [.setField .ethDst (.str v.loc)] (some row.id) (some 3)) := by
        refine ⟨⟨h.hop hsuf' (.aware v rest), rfl, matchSpiSi_le_header⟩, fun k i ha ↦ ?_⟩
        rcases toward_applies h hsuf ha with ⟨rfl, -⟩ | ⟨_, -, -, rfl, -⟩ | ⟨-, rfl, -⟩
        · exact Nat.zero_le 8
        · exact le_rfl
        · exact (by decide : 6 ≤ 8)
      obtain ⟨md', hrun⟩ := run_flowInstructions
        (run_aware md q spi (rest.length + 1) v.loc v.loc src f) (some row.id) 2
      exact .goto hit hrun ((passes_normal h).mpr rfl)
    · have hsel : (steered fuel app db flowId msg s).Selects 1
          ((Frame.ether v.loc src spi (rest.length + 1) f).header q) (missKey 1)
          [.applyActions [], .gotoTable 3] := by
        refine ⟨miss1_applies h _ s q, fun k i ha hne ↦ ?_⟩
        rcases toward_applies h hsuf ha with ⟨rfl, -⟩ | ⟨u, hsuf', hu, -⟩ | ⟨hs', -⟩
        · exact absurd rfl hne
        · exact absurd ⟨u, hsuf', hu⟩ haware
        · exact absurd hs'.symm hs
      rw [passes_goto_iff hsel rfl, passes_normal h]

theorem passes_delivery (h : Ruled fuel app db flowId msg row c m entry spi vs)
    (hsuf : v :: rest <:+ vs) (hprev : ∀ u, u :: v :: rest <:+ vs → u.dp.id ≠ v.dp.id) :
    Passes (steered fuel app db flowId msg v.dp.id) q 0 md
      (.ether v.loc src spi (rest.length + 1) f) outs ↔
        outs = emit q 1 0 f (.phys (deliveryPort v rest)) := by
  have hsel : (steered fuel app db flowId msg v.dp.id).Selects 1
      ((Frame.ether v.loc src spi (rest.length + 1) f).header q)
      ⟨1, 6, OFPMatch.fields (matchHop v.loc spi (rest.length + 1))⟩
      (flowInstructions [.decap, .decap, .output (.phys (deliveryPort v rest))] (some row.id)
        none) := by
    refine ⟨⟨h.hop hsuf (.delivery rest), rfl, matchHop_le_header⟩, fun k i ha hne ↦ ?_⟩
    rcases toward_applies h hsuf ha with ⟨rfl, -⟩ | ⟨u, hsuf', hu, -⟩ | ⟨-, rfl, -⟩
    · exact Nat.succ_pos 5
    · exact absurd hu (hprev u hsuf')
    · exact absurd rfl hne
  rw [passes_nsh h]
  exact passes_stop_iff hsel (run_flowInstructions_last (run_delivery md q spi _ _ _ src f) _)

theorem previous_apart (hsw : (vs.map fun v ↦ v.dp.id).Nodup) (hsuf : v :: rest <:+ vs) :
    ∀ u, u :: v :: rest <:+ vs → u.dp.id ≠ v.dp.id := by
  intro u hu hs
  have hlen := (suffix_unique hsw hu hsuf hs).2
  exact absurd (congrArg List.length hlen) (Nat.succ_ne_self _)

end Toward

end Nsh

theorem run_encapActions (md : BitVec 64) (q spi si : Int) (dst src : String) (f : Frame) (t : ℕ) :
    runActions q t md f (encapActions spi si dst src) = ([], some (.ether dst src spi si f)) := by
  cases f <;> rfl

section Plain

variable {pkt : Packet}

/-- What the switches do with a packet of the flow. -/
inductive Plain (msg : PacketIn) (s q : Int) (vs : List Site) (spi : Int) (pkt : Packet) :
    List Out → Prop
  | controller (md : BitVec 64) : Plain msg s q vs spi pkt [.controller 2 md (.plain pkt)]
  | normal : Plain msg s q vs spi pkt [.normal (.plain pkt)]
  | source {v : Site} {rest : List Site} (hvs : vs = v :: rest) (hs : msg.datapath.id = s) :
      Plain msg s q vs spi pkt
        [.normal (.ether v.loc msg.packet.ethSrc spi (rest.length + 1) (.plain pkt))]
  | middle {u v : Site} {rest : List Site} (hsuf : u :: v :: rest <:+ vs) (hs : u.dp.id = s) :
      Plain msg s q vs spi pkt
        [.normal (.ether v.loc msg.packet.ethSrc spi (rest.length + 1) (.plain pkt))]

theorem passes_controller (h : Ruled fuel app db flowId msg row c m entry spi vs) {f : Frame}
    (hp : Passes (steered fuel app db flowId msg s) q 2 md f outs) :
    outs = [.controller 2 md f] := by
  have hsel : (steered fuel app db flowId msg s).Selects 2 (f.header q) (missKey 2)
      [.applyActions [.output .controller]] := by
    refine ⟨⟨h.default_kept .miss2 (by decide) s, rfl, bot_le⟩, fun k i ha hne ↦ ?_⟩
    have htable := ha.table
    cases h.entry_of ha.entry with
    | default hd =>
      cases hd with
      | miss2 => exact absurd rfl hne
      | _ => cases htable
    | source => cases htable
    | hop hsuf hs hv => cases hv <;> cases htable
  exact (passes_stop_iff hsel rfl).mp hp

theorem common_ethType (h : Ruled fuel app db flowId msg row c m entry spi vs)
    (hflow : withoutEth (OFPMatch.fields c) ≤ pkt.fields) : pkt.ethType ≠ 0x894F := by
  obtain ⟨t, ht, hne⟩ := h.common_ethType
  have hpkt : pkt.fields .ethType = some (.int t) := hflow .ethType _ ht
  obtain rfl : pkt.ethType = t := by simpa [Packet.fields] using hpkt
  exact hne

theorem plain_default (h : Ruled fuel app db flowId msg row c m entry spi vs)
    (hflow : withoutEth (OFPMatch.fields c) ≤ pkt.fields) {k : FlowKey} {i : List Instruction}
    (hd : DefaultEntry k i) (htable : k.table = 0) (hk : k.fields ≤ (Frame.plain pkt).header q) :
    (k = registrationKey ∧ i = [.applyActions [], .gotoTable 2] ∧
      OFPMatch.fields matchRegistration ≤ pkt.fields) ∨
    (k = missKey 0 ∧ i = [.applyActions [], .gotoTable 3]) := by
  cases hd with
  | registration => exact .inl ⟨rfl, rfl, (le_header_of_inPort_none _ _ rfl).mp hk⟩
  | nsh =>
    have hpkt : pkt.fields .ethType = some (.int 0x894F) := hk .ethType _ rfl
    exact absurd (by simpa [Packet.fields] using hpkt) (common_ethType h hflow)
  | miss0 => exact .inr ⟨rfl, rfl⟩
  | _ => cases htable

theorem plain_of_passes (h : Ruled fuel app db flowId msg row c m entry spi vs)
    (hflow : withoutEth (OFPMatch.fields c) ≤ pkt.fields)
    (hp : Passes (steered fuel app db flowId msg s) q 0 md (.plain pkt) outs) :
    Plain msg s q vs spi pkt outs := by
  have hmiss : (steered fuel app db flowId msg s).Applies 0 ((Frame.plain pkt).header q) (missKey 0)
      [.applyActions [], .gotoTable 3] := ⟨h.default_kept .miss0 (by decide) s, rfl, bot_le⟩
  rcases passes_hits hp with ⟨-, hnone⟩ | ⟨k, i, hit, hafter⟩
  · exact absurd hmiss (hnone _ _)
  have htable := hit.table
  cases h.entry_of hit.entry with
  | default hd =>
    rcases plain_default h hflow hd htable hit.fields with ⟨-, rfl, -⟩ | ⟨-, rfl⟩
    · obtain ⟨outs', rfl, hrest⟩ := hafter
      obtain rfl := passes_controller h hrest
      exact .controller md
    · obtain ⟨outs', rfl, hrest⟩ := hafter
      obtain rfl := (passes_normal h).mp hrest
      exact .normal
  | @source v rest hvs hs =>
    obtain ⟨md', hrun⟩ := run_flowInstructions (run_encapActions md q spi
      (rest.length + 1 : ℕ) v.loc msg.packet.ethSrc (.plain pkt) 0) none 2
    rw [hrun] at hafter
    obtain ⟨outs', rfl, hrest⟩ := hafter
    obtain rfl := (passes_normal h).mp hrest
    exact .source hvs hs
  | @hop u us hsuf hs k i hv =>
    cases hv with
    | middle v rest =>
      obtain ⟨md', hrun⟩ := run_flowInstructions (run_encapActions md q spi
        (rest.length + 1) v.loc msg.packet.ethSrc (.plain pkt) 0) (some row.id) 2
      rw [hrun] at hafter
      obtain ⟨outs', rfl, hrest⟩ := hafter
      obtain rfl := (passes_normal h).mp hrest
      exact .middle hsuf hs
    | _ => cases htable

theorem given_of_ne {p : Int} (hp : p ≠ 0) : given Value.int (some p) = some (.int p) := by
  simp [given, hp]

theorem passes_source (h : Ruled fuel app db flowId msg row c m entry spi vs) {v : Site}
    {rest : List Site} (hvs : vs = v :: rest) (hflow : OFPMatch.fields c ≤ pkt.fields)
    (hpkt : OfChain c pkt) :
    Passes (steered fuel app db flowId msg msg.datapath.id) msg.inPort 0 md (.plain pkt) outs ↔
      outs = [.normal (.ether v.loc msg.packet.ethSrc spi (rest.length + 1) (.plain pkt))] := by
  have hle : OFPMatch.fields entry ≤ (Frame.plain pkt).header msg.inPort := by
    rw [h.entry_fields]
    exact Match.set_le_set hflow .inPort fun x hx ↦ by simpa using given_eq_some hx
  have hsel : (steered fuel app db flowId msg msg.datapath.id).Selects 0
      ((Frame.plain pkt).header msg.inPort) ⟨0, 8, OFPMatch.fields entry⟩
      (flowInstructions (encapActions spi (rest.length + 1 : ℕ) v.loc msg.packet.ethSrc) none
        (some 3)) := by
    refine ⟨⟨h.source hvs, rfl, hle⟩, fun k i ha hne ↦ ?_⟩
    have htable := ha.table
    cases h.entry_of ha.entry with
    | default hd =>
      rcases plain_default h hpkt.flow hd htable ha.fields with ⟨-, -, hreg⟩ | ⟨rfl, -⟩
      · exact absurd hreg hpkt.notRegistration
      · exact Nat.succ_pos 7
    | source => exact absurd rfl hne
    | hop hsuf hs hv =>
      cases hv with
      | middle => exact (by decide : 6 < 8)
      | _ => cases htable
  obtain ⟨md', hrun⟩ := run_flowInstructions (run_encapActions md msg.inPort spi
    (rest.length + 1 : ℕ) v.loc msg.packet.ethSrc (.plain pkt) 0) none 2
  rw [passes_goto_iff hsel hrun, passes_normal h]
  simp

theorem hop_at_port (h : Ruled fuel app db flowId msg row c m entry spi vs) {v : Site}
    {rest : List Site} (hown : Own msg vs v) (hsuf : v :: rest <:+ vs) (hpkt : OfChain c pkt) {k : FlowKey} {i : List Instruction}
    (ha : (steered fuel app db flowId msg v.dp.id).Applies 0 ((Frame.plain pkt).header v.port) k i) :
    (k = missKey 0 ∧ i = [.applyActions [], .gotoTable 3]) ∨ ∃ v' rest', rest = v' :: rest' ∧
      k = ⟨0, 6, OFPMatch.fields (m v.port)⟩ := by
  have hport : ∀ p, p ≠ 0 → k.fields .inPort = given .int (some p) → p = v.port := by
    intro p hp hk
    rw [given_of_ne hp] at hk
    simpa [Frame.header, eq_comm] using ha.fields .inPort _ hk
  have htable := ha.table
  cases h.entry_of ha.entry with
  | default hd =>
    rcases plain_default h hpkt.flow hd htable ha.fields with ⟨-, -, hreg⟩ | hmiss
    · exact absurd hreg hpkt.notRegistration
    · exact .inl hmiss
  | source hvs hs =>
    obtain ⟨hzero, hne⟩ := hown.source hs.symm
    exact absurd (hport msg.inPort hzero h.entry_inPort) hne
  | @hop u us hsuf' hs k i hu =>
    cases hu with
    | middle v' rest' =>
      have hattach : v.attachment = u.attachment := by
        by_cases huv : u = v
        · rw [huv]
        · have hzero := hown.others u (hsuf'.subset List.mem_cons_self) hs huv
          exact Prod.ext hs.symm (hport u.port hzero (h.middle_inPort _)).symm
      obtain ⟨rfl, rfl⟩ := suffix_unique h.placed.attachments hsuf hsuf' hattach
      exact .inr ⟨v', rest', rfl, rfl⟩
    | _ => cases htable

theorem passes_middle (h : Ruled fuel app db flowId msg row c m entry spi vs) {v v' : Site}
    {rest : List Site} (hown : Own msg vs v) (hsuf : v :: v' :: rest <:+ vs)
    (hpkt : OfChain c pkt) :
    Passes (steered fuel app db flowId msg v.dp.id) v.port 0 md (.plain pkt) outs ↔
      outs = [.normal (.ether v'.loc msg.packet.ethSrc spi (rest.length + 1) (.plain pkt))] := by
  have hle : OFPMatch.fields (m v.port) ≤ (Frame.plain pkt).header v.port := by
    rw [h.middle_fields]
    exact Match.set_le_set hpkt.flow .inPort fun x hx ↦ by simpa using given_eq_some hx
  have hsel : (steered fuel app db flowId msg v.dp.id).Selects 0 ((Frame.plain pkt).header v.port)
      ⟨0, 6, OFPMatch.fields (m v.port)⟩
      (flowInstructions (encapActions spi (rest.length + 1) v'.loc msg.packet.ethSrc) (some row.id)
        (some 3)) := by
    refine ⟨⟨h.hop hsuf (.middle v' rest), rfl, hle⟩, fun k i ha hne ↦ ?_⟩
    rcases hop_at_port h hown hsuf hpkt ha with ⟨rfl, -⟩ | ⟨_, _, -, rfl⟩
    · exact Nat.succ_pos 5
    · exact absurd rfl hne
  obtain ⟨md', hrun⟩ := run_flowInstructions (run_encapActions md v.port spi
    (rest.length + 1) v'.loc msg.packet.ethSrc (.plain pkt) 0) (some row.id) 2
  rw [passes_goto_iff hsel hrun, passes_normal h]

theorem passes_last (h : Ruled fuel app db flowId msg row c m entry spi vs) {v : Site}
    (hown : Own msg vs v) (hsuf : [v] <:+ vs) (hpkt : OfChain c pkt) :
    Passes (steered fuel app db flowId msg v.dp.id) v.port 0 md (.plain pkt) outs ↔
      outs = [.normal (.plain pkt)] := by
  have hsel : (steered fuel app db flowId msg v.dp.id).Selects 0 ((Frame.plain pkt).header v.port)
      (missKey 0) [.applyActions [], .gotoTable 3] := by
    refine ⟨⟨h.default_kept .miss0 (by decide) v.dp.id, rfl, bot_le⟩, fun k i ha hne ↦ ?_⟩
    rcases hop_at_port h hown hsuf hpkt ha with ⟨rfl, -⟩ | ⟨_, _, hrest, -⟩
    · exact absurd rfl hne
    · cases hrest
  rw [passes_goto_iff hsel rfl, passes_normal h]

theorem passes_returned (h : Ruled fuel app db flowId msg row c m entry spi vs) {v : Site}
    {rest : List Site} (hown : Own msg vs v) (hsuf : v :: rest <:+ vs) (hpkt : OfChain c pkt) :
    Passes (steered fuel app db flowId msg v.dp.id) v.port 0 md (.plain pkt) outs ↔
      outs = [.normal (onward msg.packet.ethSrc spi (.plain pkt) rest)] := by
  cases rest with
  | nil => exact passes_last h hown hsuf hpkt
  | cons v' rest => exact passes_middle h hown hsuf hpkt

end Plain

end NshSfc.SiteFrames
