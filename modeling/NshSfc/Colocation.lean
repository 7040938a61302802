import NshSfc.Demo
import NshSfc.SiteFrames

namespace NshSfc.Colocation

open Library Library.Script Python Database OpenFlow RowMatch App Packets Controller Sent Handler
  Keys Switch Sites SiteTables SiteFrames Pipeline

/-- The network around the switches: the ports at which NORMAL forwarding may send a frame for a
MAC address out, and where the cables lead. -/
structure Cabling where
  sends : Int → String → Int → Prop
  far : Int → Int → Option (Int × Int)

/-- NORMAL forwarding takes a frame for a VNF to the port of this VNF on its switch, and to the port
of no VNF elsewhere. The VNFs are hosts. -/
structure Wired (net : Cabling) (vs : List Site) : Prop where
  host : ∀ v ∈ vs, net.far v.dp.id v.port = none
  own : ∀ v ∈ vs, net.sends v.dp.id v.loc v.port
  away : ∀ v ∈ vs, ∀ s n, s ≠ v.dp.id → net.sends s v.loc n → ∀ u ∈ vs, u.attachment ≠ (s, n)

def Leaves (net : Cabling) (s q : Int) (outs : List Out) (n : Int) (f : Frame) : Prop :=
  .port n f ∈ outs ∨
    .normal f ∈ outs ∧ n ≠ q ∧ ∃ mac, f.fields .ethDst = some (.str mac) ∧ net.sends s mac n

/-- The frames of the flow that enter switches: packets of the flow where it is activated, packets
that the VNFs send, and what comes over a cable. -/
inductive Enters (T : Network) (net : Cabling) (msg : PacketIn) (c : OFPMatch) (vs : List Site) :
    Int → Int → Frame → Prop
  | source {pkt : Packet} (hflow : OFPMatch.fields c ≤ pkt.fields) :
      Enters T net msg c vs msg.datapath.id msg.inPort (.plain pkt)
  | vnf {v : Site} (hv : v ∈ vs) {pkt : Packet} (hflow : withoutEth (OFPMatch.fields c) ≤ pkt.fields) :
      Enters T net msg c vs v.dp.id v.port (.plain pkt)
  | cable {s q : Int} {f : Frame} (h : Enters T net msg c vs s q f) {outs : List Out}
      (hp : Passes (T s) q 0 0 f outs) {n : Int} {f' : Frame} (hl : Leaves net s q outs n f')
      {s' q' : Int} (hfar : net.far s n = some (s', q')) : Enters T net msg c vs s' q' f'

def Delivered (T : SwitchTable) (q : Int) (f : Frame) : Prop :=
  ∃ loc spi si i, T.Hits 1 (f.header q) ⟨1, 6, OFPMatch.fields (matchHop loc spi si)⟩ i

/-- What leaves at the port of a VNF of the chain is a plain packet, and a delivery rule has removed
the headers of what came in with headers. -/
def Readable (T : Network) (net : Cabling) (msg : PacketIn) (c : OFPMatch) (vs : List Site) : Prop :=
  ∀ s q f, Enters T net msg c vs s q f → ∀ outs, Passes (T s) q 0 0 f outs →
    ∀ v ∈ vs, v.dp.id = s → ∀ f', Leaves net s q outs v.port f' →
      (∃ pkt, f' = .plain pkt) ∧ ((∃ pkt, f = .plain pkt) ∨ Delivered (T s) q f)

section Leaves

variable {net : Cabling} {s q n : Int} {f f' : Frame}

theorem leaves_normal (h : Leaves net s q [.normal f] n f') :
    f' = f ∧ n ≠ q ∧ ∃ mac, f.fields .ethDst = some (.str mac) ∧ net.sends s mac n := by
  rcases h with hout | ⟨hout, hn, hmac⟩
  · simp at hout
  · obtain rfl : f' = f := by simpa using hout
    exact ⟨rfl, hn, hmac⟩

theorem leaves_emit {t : ℕ} {md : BitVec 64} {p : Int}
    (h : Leaves net s q (emit q t md f (.phys p)) n f') : f' = f := by
  by_cases hp : p = q
  · simp [Leaves, emit, hp] at h
  · have hout : n = p ∧ f' = f := by simpa [Leaves, emit, hp] using h
    exact hout.2

end Leaves

inductive Known (c : OFPMatch) (src : String) (spi : Int) (vs : List Site) : Frame → Prop
  | plain {pkt : Packet} (hflow : withoutEth (OFPMatch.fields c) ≤ pkt.fields) :
      Known c src spi vs (.plain pkt)
  | toward {v : Site} {rest : List Site} (hsuf : v :: rest <:+ vs) {pkt : Packet}
      (hflow : withoutEth (OFPMatch.fields c) ≤ pkt.fields) :
      Known c src spi vs (.ether v.loc src spi (rest.length + 1) (.plain pkt))

variable {fuel : ℕ} {app : SfcApp} {db : Db} {flowId : ℕ} {msg : PacketIn} {row : FlowRow}
  {c entry : OFPMatch} {m : Int → OFPMatch} {spi : Int} {vs : List Site} {net : Cabling}
  {s q : Int} {f : Frame}

theorem known_step (h : Ruled fuel app db flowId msg row c m entry spi vs)
    (hf : Known c msg.packet.ethSrc spi vs f) {outs : List Out}
    (hp : Passes (steered fuel app db flowId msg s) q 0 0 f outs) {n : Int} {f' : Frame}
    (hl : Leaves net s q outs n f') : Known c msg.packet.ethSrc spi vs f' := by
  cases hf with
  | plain hflow =>
    cases plain_of_passes h hflow hp with
    | controller => simp [Leaves] at hl
    | normal =>
      obtain ⟨rfl, -⟩ := leaves_normal hl
      exact .plain hflow
    | source hvs hs =>
      obtain ⟨rfl, -⟩ := leaves_normal hl
      exact .toward (hvs ▸ List.suffix_refl _) hflow
    | @middle u v rest hsuf hs =>
      obtain ⟨rfl, -⟩ := leaves_normal hl
      exact .toward ((List.suffix_cons u _).trans hsuf) hflow
  | toward hsuf hflow =>
    cases toward_of_passes h hsuf hp with
    | transit =>
      obtain ⟨rfl, -⟩ := leaves_normal hl
      exact .toward hsuf hflow
    | aware =>
      obtain ⟨rfl, -⟩ := leaves_normal hl
      exact .toward hsuf hflow
    | delivery =>
      obtain rfl := leaves_emit hl
      exact .plain hflow

theorem known_of_enters (h : Ruled fuel app db flowId msg row c m entry spi vs)
    (hf : Enters (steered fuel app db flowId msg) net msg c vs s q f) :
    Known c msg.packet.ethSrc spi vs f := by
  induction hf with
  | source hflow => exact .plain ((withoutEth_le _).trans hflow)
  | vnf hv hflow => exact .plain hflow
  | cable _ hp hl _ ih => exact known_step h ih hp hl

/-- Neither the first VNF and the entry nor two consecutive VNFs share a switch. -/
def Apart (msg : PacketIn) (vs : List Site) : Prop :=
  (msg.datapath.id :: vs.map fun v ↦ v.dp.id).IsChain (· ≠ ·)

instance : Decidable (Apart msg vs) :=
  inferInstanceAs (Decidable ((msg.datapath.id :: vs.map fun v ↦ v.dp.id).IsChain (· ≠ ·)))

theorem isChain_iff_suffix {α β : Type} {R : β → β → Prop} {g : α → β} {b : β} {l : List α} :
    (b :: l.map g).IsChain R ↔ (∀ a as, l = a :: as → R b (g a)) ∧
      ∀ a a' as, a :: a' :: as <:+ l → R (g a) (g a') := by
  induction l generalizing b with
  | nil => simp
  | cons x l ih =>
    rw [List.map_cons, List.isChain_cons_cons, ih]
    constructor
    · intro ⟨hx, hl, hsuf⟩
      refine ⟨fun a as heq ↦ ?_, fun a a' as h ↦ ?_⟩
      · cases heq
        exact hx
      · rcases List.suffix_cons_iff.mp h with heq | h
        · cases heq
          exact hl a' as rfl
        · exact hsuf a a' as h
    · intro ⟨hx, hsuf⟩
      refine ⟨hx x l rfl, fun a as heq ↦ ?_, fun a a' as h ↦ ?_⟩
      · exact hsuf x a as (by rw [heq])
      · exact hsuf a a' as (h.trans (List.suffix_cons x l))

theorem not_leaves_toward (hnet : Wired net vs) {v u : Site} (hv : v ∈ vs) (hu : u ∈ vs)
    (hs : s ≠ v.dp.id) (hus : u.dp.id = s) {src : String} {si : Int} {inner f' : Frame}
    (hl : Leaves net s q [.normal (.ether v.loc src spi si inner)] u.port f') : False := by
  obtain ⟨-, -, mac, hmac, hsends⟩ := leaves_normal hl
  obtain rfl : v.loc = mac := by simpa [Frame.fields] using hmac
  exact hnet.away v hv s u.port hs hsends u hu (Prod.ext hus rfl)

theorem not_readable {v : Site} (hv : v ∈ vs) {pkt : Packet} {src : String} {si : Int}
    (henters : Enters (steered fuel app db flowId msg) net msg c vs v.dp.id q (.plain pkt))
    (hp : Passes (steered fuel app db flowId msg v.dp.id) q 0 0 (.plain pkt)
      [.normal (.ether v.loc src spi si (.plain pkt))])
    (hnet : Wired net vs) (hq : v.port ≠ q) :
    ¬ Readable (steered fuel app db flowId msg) net msg c vs := by
  intro hread
  have hl : Leaves net v.dp.id q [.normal (.ether v.loc src spi si (.plain pkt))] v.port
      (.ether v.loc src spi si (.plain pkt)) :=
    .inr ⟨List.mem_singleton_self _, hq, v.loc, rfl, hnet.own v hv⟩
  obtain ⟨⟨pkt', hplain⟩, -⟩ := hread _ _ _ henters _ hp v hv rfl _ hl
  cases hplain

theorem apart_of_readable (h : Ruled fuel app db flowId msg row c m entry spi vs)
    (hroot : Rooted msg c vs) (hnet : Wired net vs)
    (hread : Readable (steered fuel app db flowId msg) net msg c vs) : Apart msg vs := by
  have hpkt := hroot.ofChain h.ofFlow
  refine isChain_iff_suffix.mpr ⟨fun v rest hvs hs ↦ ?_, fun u v rest hsuf hs ↦ ?_⟩
  · have hv : v ∈ vs := hvs ▸ List.mem_cons_self
    have hp : Passes (steered fuel app db flowId msg msg.datapath.id) msg.inPort 0 0
        (.plain msg.packet) _ := (passes_source h hvs hroot.flow hpkt).mpr rfl
    have henters : Enters (steered fuel app db flowId msg) net msg c vs msg.datapath.id msg.inPort
        (.plain msg.packet) := .source hroot.flow
    rw [hs] at hp henters
    exact not_readable hv henters hp hnet (fun hq ↦ hroot.apart v hv (Prod.ext hs.symm hq)) hread
  · have hu : u ∈ vs := hsuf.subset List.mem_cons_self
    have hv : v ∈ vs := hsuf.subset (List.mem_cons_of_mem _ List.mem_cons_self)
    have hp : Passes (steered fuel app db flowId msg u.dp.id) u.port 0 0 (.plain msg.packet) _ :=
      (passes_middle h (hroot.own hu) hsuf hpkt).mpr rfl
    have henters : Enters (steered fuel app db flowId msg) net msg c vs u.dp.id u.port
        (.plain msg.packet) := .vnf hu hpkt.flow
    have hne : v.port ≠ u.port := by
      intro hport
      have hattach : u.attachment = v.attachment := Prod.ext hs hport.symm
      have hlen := (suffix_unique h.placed.attachments hsuf ((List.suffix_cons u _).trans hsuf)
        hattach).2
      exact absurd (congrArg List.length hlen) (Nat.succ_ne_self _)
    rw [hs] at hp henters
    exact not_readable hv henters hp hnet hne hread

theorem readable_of_apart (h : Ruled fuel app db flowId msg row c m entry spi vs)
    (hnet : Wired net vs) (hapart : Apart msg vs) :
    Readable (steered fuel app db flowId msg) net msg c vs := by
  obtain ⟨hfirst, hnext⟩ := isChain_iff_suffix.mp hapart
  intro s q f hf outs hp u hu hs f' hl
  cases known_of_enters h hf with
  | plain hflow =>
    refine ⟨?_, .inl ⟨_, rfl⟩⟩
    cases plain_of_passes h hflow hp with
    | controller => simp [Leaves] at hl
    | normal => exact ⟨_, (leaves_normal hl).1⟩
    | @source v rest hvs hentry =>
      have hne : s ≠ v.dp.id := hentry ▸ hfirst v rest hvs
      exact (not_leaves_toward hnet (hvs ▸ List.mem_cons_self) hu hne hs hl).elim
    | @middle w v rest hsuf hw =>
      have hv : v ∈ vs := hsuf.subset (List.mem_cons_of_mem _ List.mem_cons_self)
      have hne : s ≠ v.dp.id := hw ▸ hnext w v rest hsuf
      exact (not_leaves_toward hnet hv hu hne hs hl).elim
  | @toward v rest hsuf pkt hflow =>
    have hv : v ∈ vs := hsuf.subset List.mem_cons_self
    cases toward_of_passes h hsuf hp with
    | transit hne => exact (not_leaves_toward hnet hv hu hne.symm hs hl).elim
    | @aware w hsuf' hw =>
      have hne : s ≠ v.dp.id := hw ▸ hnext w v rest hsuf'
      exact (not_leaves_toward hnet hv hu hne hs hl).elim
    | delivery _ hit => exact ⟨⟨pkt, leaves_emit hl⟩, .inr ⟨_, _, _, _, hit⟩⟩

/-- The VNFs receive plain packets only, exactly if neither the entry and the first VNF nor two
consecutive VNFs are on one switch. -/
theorem readable_iff (h : Activated fuel app db flowId msg row c spi vs)
    (hroot : Rooted msg c vs) (hnet : Wired net vs) :
    Readable (steered fuel app db flowId msg) net msg c vs ↔ Apart msg vs := by
  obtain ⟨m, entry, hr⟩ := h.ruled
  exact ⟨apart_of_readable hr hroot hnet, readable_of_apart hr hnet⟩

section Demo

def demoSites : List Site :=
  [⟨1, "00:00:00:00:00:01", ⟨1, 0⟩, 1⟩, ⟨2, "00:00:00:00:00:02", ⟨2, 0⟩, 1⟩]

def demoCabling : Cabling where
  sends s mac n :=
    (mac = "00:00:00:00:00:01" ∧ n = if s = 1 then 1 else 2) ∨
    (mac = "00:00:00:00:00:02" ∧ n = if s = 2 then 1 else 2)
  far s n :=
    if n = 2 then some (if s = 1 then (2, 2) else (s - 1, if s = 2 then 2 else 3))
    else if n = 3 then some (s + 1, 2) else none

theorem demo_placed : Placed Demo.app Demo.db 6 demoSites where
  length_le := by decide
  id_ne_zero := by decide
  rows := by decide
  bidirectional := by decide
  locator := by decide
  connected := by decide
  attachments := by decide

theorem demo_activated :
    Activated 2 Demo.app Demo.db 1 Demo.packetIn (deriveTypes Demo.flow1) Demo.flow1Match 6
      demoSites where
  placed := demo_placed
  ne_nil := by simp [demoSites]
  ofFlow := Demo.packetIn_ofFlow
  matched := Demo.flow1_matched
  ethType := by decide
  service := rfl
  fuel_le := by decide

theorem demo_rooted : Rooted Demo.packetIn Demo.flow1Match demoSites where
  flow := by decide
  inPort := by decide
  port := by decide
  apart := by decide

theorem demo_wired : Wired demoCabling demoSites where
  host := by decide
  own := by simp [demoSites, demoCabling]
  away := by
    intro v hv s n hs hsends u hu heq
    simp only [demoSites, List.mem_cons, List.not_mem_nil, or_false] at hv hu
    rcases hv with rfl | rfl <;> rcases hu with rfl | rfl <;>
      simp_all [demoCabling, Site.attachment]

theorem readable_demo :
    Readable (steered 2 Demo.app Demo.db 1 Demo.packetIn) demoCabling Demo.packetIn
      Demo.flow1Match demoSites :=
  (readable_iff demo_activated demo_rooted demo_wired).mpr (by decide)

def sharedDb : Db :=
  { Demo.singleDb with vnf := [{ Demo.forwarder 2 "forward2" 4 "00:00:00:00:00:02" with
      inPort := some 4 }] }

def sharedSites : List Site := [⟨2, "00:00:00:00:00:02", ⟨4, 0⟩, 4⟩]

def sharedCabling : Cabling where
  sends s mac n := mac = "00:00:00:00:00:02" ∧ n = if s = 4 then 4 else 2
  far _ _ := none

theorem shared_activated :
    Activated 1 Demo.app sharedDb 1 Demo.packetIn (deriveTypes Demo.flow1Single) Demo.flow1Match 9
      sharedSites where
  placed :=
    { length_le := by decide
      id_ne_zero := by decide
      rows := by decide
      bidirectional := by decide
      locator := by decide
      connected := by decide
      attachments := by decide }
  ne_nil := by simp [sharedSites]
  ofFlow := Demo.packetIn_ofFlow
  matched := ⟨⟨rfl, Demo.flow1Single_common⟩, rfl⟩
  ethType := by decide
  service := rfl
  fuel_le := by decide

theorem shared_rooted : Rooted Demo.packetIn Demo.flow1Match sharedSites where
  flow := by decide
  inPort := by decide
  port := by decide
  apart := by decide

theorem shared_wired : Wired sharedCabling sharedSites where
  host := by decide
  own := by simp [sharedSites, sharedCabling]
  away := by
    intro v hv s n hs hsends u hu heq
    simp_all [sharedSites, sharedCabling, Site.attachment]

/-- NORMAL forwarding hands the VNF on the switch of h4 the frame that the source entry has
encapsulated. -/
theorem encapsulated_at_entry :
    Activated 1 Demo.app sharedDb 1 Demo.packetIn (deriveTypes Demo.flow1Single) Demo.flow1Match 9
      sharedSites ∧
    Rooted Demo.packetIn Demo.flow1Match sharedSites ∧ Wired sharedCabling sharedSites ∧
    (∃ outs, Passes (steered 1 Demo.app sharedDb 1 Demo.packetIn 4) 1 0 0 (.plain Demo.packet) outs ∧
      Leaves sharedCabling 4 1 outs 4 (.ether "00:00:00:00:00:02" "00:00:00:00:00:04" 9 1
        (.plain Demo.packet))) ∧
    ¬ Readable (steered 1 Demo.app sharedDb 1 Demo.packetIn) sharedCabling Demo.packetIn
      Demo.flow1Match sharedSites := by
  obtain ⟨m, entry, hr⟩ := shared_activated.ruled
  have hpkt := shared_rooted.ofChain hr.ofFlow
  have hp : Passes (steered 1 Demo.app sharedDb 1 Demo.packetIn 4) 1 0 0 (.plain Demo.packet) _ :=
    (passes_source hr rfl shared_rooted.flow hpkt).mpr rfl
  refine ⟨shared_activated, shared_rooted, shared_wired, ⟨_, hp, ?_⟩, fun hread ↦ ?_⟩
  · exact .inr ⟨List.mem_singleton_self _, by decide, _, rfl, by simp [sharedCabling]⟩
  · exact absurd (apart_of_readable hr shared_rooted shared_wired hread) (by decide)

end Demo

end NshSfc.Colocation
