import NshSfc.Async
import NshSfc.Colocation
import NshSfc.Library.Run

namespace NshSfc.Learning

open Library Library.Script Python Database OpenFlow RowMatch App Packets Controller Sent Handler
  Keys Switch Sites SiteTables SiteFrames Pipeline Async

structure State where
  flight : List (Int × Int × Frame)
  handed : List (Int × Int × Packet)
  learned : Int → String → Option Int

def start : State := ⟨[], [], fun _ _ ↦ none⟩

inductive Event
  | enter (pkt : Packet)
  | back (v : Site) (pkt : Packet)
  | forward (s port : Int) (f : Frame) (outs : List Out)

def normalFrom (mac : String) : Out → Bool
  | .normal f => f.fields .ethSrc = some (.str mac)
  | _ => false

def learn (learned : Int → String → Option Int) (s port : Int) (outs : List Out) :
    Int → String → Option Int :=
  fun s' mac ↦ if s' = s ∧ outs.any (normalFrom mac) then some port else learned s' mac

/-- Packets of the flow enter where it is activated. A VNF that has been handed a packet sends any
packets of the flow. NORMAL forwarding may choose any ports, and frames may be lost. -/
inductive Step (T : Network) (links : Links) (msg : PacketIn) (c : OFPMatch) (vs : List Site) :
    State → Event → State → Prop
  | enter {σ : State} {pkt : Packet} (hflow : OFPMatch.fields c ≤ pkt.fields) (hpkt : OfChain c pkt) :
      Step T links msg c vs σ (.enter pkt)
        { σ with flight := (msg.datapath.id, msg.inPort, .plain pkt) :: σ.flight }
  | back {σ : State} {v : Site} (hv : v ∈ vs) {got : Packet}
      (hgot : (v.dp.id, v.port, got) ∈ σ.handed) {pkt : Packet} (hpkt : OfChain c pkt) :
      Step T links msg c vs σ (.back v pkt)
        { σ with flight := (v.dp.id, v.port, .plain pkt) :: σ.flight }
  | forward {σ : State} {s port : Int} {f : Frame} {before after : List (Int × Int × Frame)}
      (h : σ.flight = before ++ (s, port, f) :: after) {outs : List Out}
      (hp : Passes (T s) port 0 0 f outs) (arrivals : List (Int × Int × Frame))
      (harr : ∀ a ∈ arrivals, ∃ n, Leaves outs n a.2.2 ∧ links s n = some (a.1, a.2.1))
      (handed : List (Int × Int × Packet))
      (hhand : ∀ a ∈ handed, a.1 = s ∧ Leaves outs a.2.1 (.plain a.2.2) ∧ links s a.2.1 = none) :
      Step T links msg c vs σ (.forward s port f outs)
        { flight := before ++ after ++ arrivals
          handed := σ.handed ++ handed
          learned := learn σ.learned s port outs }

def Clean (mac : String) (vs : List Site) (σ : State) : Prop :=
  ∀ v ∈ vs, σ.learned v.dp.id mac ≠ some v.port

/-- What a switch encapsulates for a VNF carries the address of this VNF. -/
def Addressed (vs : List Site) : Event → Prop
  | .forward s port _ outs => ∀ v ∈ vs, v.attachment = (s, port) → ∀ dst src spi si inner,
      .normal (.ether dst src spi si inner) ∈ outs → src = v.loc
  | _ => True

/-- If the switch processes a packet from a VNF, it is from the last one and carries another source
address than `mac`. -/
def Harmless (mac : String) (vs : List Site) : Event → Prop
  | .forward s port f _ => ∀ v rest pkt, v :: rest <:+ vs → v.attachment = (s, port) →
      f = .plain pkt → rest = [] ∧ pkt.ethSrc ≠ mac
  | _ => True

def FromVnfs (c : OFPMatch) (vs : List Site) (σ : State) : Prop :=
  ∀ a ∈ σ.flight, ∀ v ∈ vs, v.attachment = (a.1, a.2.1) → ∃ pkt, a.2.2 = .plain pkt ∧ OfChain c pkt

variable {fuel : ℕ} {app : SfcApp} {db : Db} {flowId : ℕ} {msg : PacketIn} {row : FlowRow}
  {c entry : OFPMatch} {m : Int → OFPMatch} {spi : Int} {vs : List Site} {links : Links}
  {σ σ' : State} {e : Event} {es : List Event} {T : Network}

theorem FromVnfs.step (h : FromVnfs c vs σ) (hroot : Rooted msg c vs)
    (hlinks : ∀ v ∈ vs, ∀ s n, links s n ≠ some v.attachment)
    (hst : Step T links msg c vs σ e σ') : FromVnfs c vs σ' := by
  intro a ha v hv hattach
  cases hst with
  | enter hflow hpkt =>
    rcases List.mem_cons.mp ha with rfl | ha
    · exact absurd hattach (hroot.apart v hv)
    · exact h a ha v hv hattach
  | back hu hgot hpkt =>
    rcases List.mem_cons.mp ha with rfl | ha
    · exact ⟨_, rfl, hpkt⟩
    · exact h a ha v hv hattach
  | @forward s port f before after hf outs hp arrivals harr handed hhand =>
    rcases List.mem_append.mp ha with ha | ha
    · refine h a ?_ v hv hattach
      rw [hf]
      rcases List.mem_append.mp ha with ha | ha
      · exact List.mem_append_left _ ha
      · exact List.mem_append_right _ (List.mem_cons_of_mem _ ha)
    · obtain ⟨n, -, hlink⟩ := harr a ha
      exact absurd (hattach ▸ hlink) (hlinks v hv s n)

theorem fromVnfs_start : FromVnfs c vs start := by
  intro a ha
  cases ha

theorem clean_start (mac : String) : Clean mac vs start := by
  intro v _ hv
  cases hv

theorem fromVnfs_of_run (hroot : Rooted msg c vs)
    (hlinks : ∀ v ∈ vs, ∀ s n, links s n ≠ some v.attachment)
    (hrun : Run (Step T links msg c vs) start es σ) : FromVnfs c vs σ :=
  hrun.invariant (FromVnfs c vs) (fun _ _ _ h hst ↦ h.step hroot hlinks hst) fromVnfs_start

theorem learn_of_returned {learned : Int → String → Option Int} {s port : Int} {f : Frame}
    (mac : String) : learn learned s port [.normal f] s mac =
      if f.fields .ethSrc = some (.str mac) then some port else learned s mac := by
  simp [learn, normalFrom]

section Step

variable (h : Ruled fuel app db flowId msg row c m entry spi vs) (hroot : Rooted msg c vs)
  (hvnfs : FromVnfs c vs σ)
  (hst : Step (steered fuel app db flowId msg) links msg c vs σ e σ')

include h hroot hvnfs hst

theorem harmless_of_clean (hclean : Clean msg.packet.ethSrc vs σ') :
    Harmless msg.packet.ethSrc vs e := by
  cases hst with
  | enter => trivial
  | back => trivial
  | @forward s port f before after hf outs hp arrivals harr handed hhand =>
    intro v rest pkt hsuf hattach hplain
    have hv : v ∈ vs := hsuf.subset List.mem_cons_self
    obtain ⟨rfl, rfl⟩ : v.dp.id = s ∧ v.port = port := Prod.mk.inj hattach
    have hmem : (v.dp.id, v.port, f) ∈ σ.flight := by
      rw [hf]
      exact List.mem_append_right _ List.mem_cons_self
    obtain ⟨pkt', hplain', hpkt⟩ := hvnfs _ hmem v hv rfl
    obtain rfl : f = .plain pkt := hplain
    obtain rfl : pkt = pkt' := Frame.plain.inj hplain'
    obtain rfl := (passes_returned h (hroot.own hv) hsuf hpkt).mp hp
    have hne : learn σ.learned v.dp.id v.port _ v.dp.id msg.packet.ethSrc ≠ some v.port :=
      hclean v hv
    rw [learn_of_returned] at hne
    cases rest with
    | nil =>
      refine ⟨rfl, fun hsrc ↦ hne (if_pos ?_)⟩
      rw [← hsrc]
      rfl
    | cons v' rest => exact absurd (if_pos rfl) hne

theorem clean_of_harmless (hharmless : Harmless msg.packet.ethSrc vs e)
    (hclean : Clean msg.packet.ethSrc vs σ) : Clean msg.packet.ethSrc vs σ' ∧ Addressed vs e := by
  cases hst with
  | enter => exact ⟨hclean, trivial⟩
  | back => exact ⟨hclean, trivial⟩
  | @forward s port f before after hf outs hp arrivals harr handed hhand =>
    -- what the switch does with a packet from the last VNF
    have hlast : ∀ v ∈ vs, v.attachment = (s, port) → ∃ pkt, outs = [.normal (.plain pkt)] ∧
        pkt.ethSrc ≠ msg.packet.ethSrc := by
      intro v hv hattach
      obtain ⟨rfl, rfl⟩ : v.dp.id = s ∧ v.port = port := Prod.mk.inj hattach
      have hmem : (v.dp.id, v.port, f) ∈ σ.flight := by
        rw [hf]
        exact List.mem_append_right _ List.mem_cons_self
      obtain ⟨pkt, rfl, hpkt⟩ := hvnfs _ hmem v hv rfl
      obtain ⟨rest, hsuf⟩ : ∃ rest, v :: rest <:+ vs := by
        obtain ⟨pre, rest, rfl⟩ := List.append_of_mem hv
        exact ⟨rest, List.suffix_append _ _⟩
      obtain ⟨rfl, hsrc⟩ := hharmless v rest pkt hsuf rfl rfl
      exact ⟨pkt, (passes_returned h (hroot.own hv) hsuf hpkt).mp hp, hsrc⟩
    refine ⟨fun v hv hlearned ↦ ?_, fun v hv hattach dst src spi si inner hout ↦ ?_⟩
    · by_cases hattach : v.attachment = (s, port)
      · obtain ⟨pkt, rfl, hsrc⟩ := hlast v hv hattach
        obtain ⟨rfl, rfl⟩ : v.dp.id = s ∧ v.port = port := Prod.mk.inj hattach
        have hlearned : learn σ.learned v.dp.id v.port _ v.dp.id msg.packet.ethSrc = some v.port :=
          hlearned
        rw [learn_of_returned, if_neg (by simpa [Frame.fields, Packet.fields] using hsrc)] at hlearned
        exact hclean v hv hlearned
      · simp only [learn] at hlearned
        split at hlearned
        · rename_i hs
          exact hattach (Prod.ext hs.1 (Option.some.inj hlearned).symm)
        · exact hclean v hv hlearned
    · obtain ⟨pkt, rfl, -⟩ := hlast v hv hattach
      cases List.mem_singleton.mp hout

end Step

/-- A run keeps the address of the source host off the ports of the VNFs, and encapsulates with the
addresses of the VNFs, exactly if it processes no packet from a VNF but from the last one, and these
do not carry the address of the source host. -/
theorem clean_iff_harmless (h : Activated fuel app db flowId msg row c spi vs)
    (hroot : Rooted msg c vs) (hlinks : ∀ v ∈ vs, ∀ s n, links s n ≠ some v.attachment)
    (hrun : Run (Step (steered fuel app db flowId msg) links msg c vs) start es σ) :
    ((∀ before σ', before <+: es →
        Run (Step (steered fuel app db flowId msg) links msg c vs) start before σ' →
          Clean msg.packet.ethSrc vs σ') ∧ ∀ e ∈ es, Addressed vs e) ↔
      ∀ e ∈ es, Harmless msg.packet.ethSrc vs e := by
  obtain ⟨m, entry, hr⟩ := h.ruled
  -- each event of the run is a step from a state that the run has reached
  have hsplit : ∀ e ∈ es, ∃ before σ₁ σ₂, before ++ [e] <+: es ∧
      Run (Step (steered fuel app db flowId msg) links msg c vs) start before σ₁ ∧
      Step (steered fuel app db flowId msg) links msg c vs σ₁ e σ₂ := by
    intro e he
    obtain ⟨before, after, rfl⟩ := List.append_of_mem he
    obtain ⟨σ₁, hbefore, hafter⟩ := hrun.split
    cases hafter with
    | @cons _ σ₂ _ _ _ hst _ => exact ⟨before, σ₁, σ₂, ⟨after, by simp⟩, hbefore, hst⟩
  constructor
  · intro ⟨hclean, _⟩ e he
    obtain ⟨before, σ₁, σ₂, hpre, hbefore, hst⟩ := hsplit e he
    have hvnfs := fromVnfs_of_run hroot hlinks hbefore
    exact harmless_of_clean hr hroot hvnfs hst
      (hclean _ σ₂ hpre (hbefore.trans (.one hst)))
  · intro hharmless
    have hpast : ∀ before σ', before <+: es →
        Run (Step (steered fuel app db flowId msg) links msg c vs) start before σ' →
          Clean msg.packet.ethSrc vs σ' := by
      intro before σ' hpre hbefore
      have hrestrict := hbefore.restrict fun e he ↦ hharmless e (hpre.subset he)
      have hinv : FromVnfs c vs σ' ∧ Clean msg.packet.ethSrc vs σ' := by
        refine hrestrict.invariant (fun σ ↦ FromVnfs c vs σ ∧ Clean msg.packet.ethSrc vs σ) ?_
          ⟨fromVnfs_start, clean_start _⟩
        intro σ e σ' ⟨hvnfs, hclean⟩ ⟨hst, he⟩
        exact ⟨hvnfs.step hroot hlinks hst, (clean_of_harmless hr hroot hvnfs hst he hclean).1⟩
      exact hinv.2
    refine ⟨hpast, fun e he ↦ ?_⟩
    obtain ⟨before, σ₁, σ₂, hpre, hbefore, hst⟩ := hsplit e he
    have hvnfs := fromVnfs_of_run hroot hlinks hbefore
    have hclean := hpast before σ₁ ((List.prefix_append _ _).trans hpre) hbefore
    exact (clean_of_harmless hr hroot hvnfs hst (hharmless e he) hclean).2

section Demo

def demoFrame : Frame :=
  .ether "00:00:00:00:00:01" "00:00:00:00:00:04" 6 2 (.plain Demo.packet)

def demoReturned : Packet := Demo.packet.withEthSrc "00:00:00:00:00:01"

def demoEncapsulated : Frame :=
  .ether "00:00:00:00:00:02" "00:00:00:00:00:04" 6 1 (.plain demoReturned)

def demoThere : List Event :=
  [.enter Demo.packet,
   .forward 4 1 (.plain Demo.packet) [.normal demoFrame],
   .forward 3 3 demoFrame [.normal demoFrame],
   .forward 2 3 demoFrame [.normal demoFrame],
   .forward 1 2 demoFrame [.port 1 (.plain Demo.packet)]]

def demoBack : List Event :=
  [.back ⟨1, "00:00:00:00:00:01", ⟨1, 0⟩, 1⟩ demoReturned,
   .forward 1 1 (.plain demoReturned) [.normal demoEncapsulated]]

abbrev DemoStep : State → Event → State → Prop :=
  Step (steered 2 Demo.app Demo.db 1 Demo.packetIn) Colocation.demoCabling.far Demo.packetIn
    Demo.flow1Match Colocation.demoSites

theorem demo_ofChain : OfChain Demo.flow1Match Demo.packet :=
  Colocation.demo_rooted.ofChain Demo.packetIn_ofFlow

theorem Step.carried {σ : State} {s port : Int} {f g : Frame} (hf : σ.flight = [(s, port, f)])
    (hp : Passes (T s) port 0 0 f [.normal g]) {n s' port' : Int}
    (hlink : links s n = some (s', port')) :
    Step T links msg c vs σ (.forward s port f [.normal g])
      ⟨[(s', port', g)], σ.handed, learn σ.learned s port [.normal g]⟩ := by
  have hst : Step T links msg c vs σ (.forward s port f [.normal g])
      ⟨[] ++ [] ++ [(s', port', g)], σ.handed ++ [], learn σ.learned s port [.normal g]⟩ := by
    refine .forward hf hp _ (fun a ha ↦ ?_) [] (by simp)
    obtain rfl := List.mem_singleton.mp ha
    exact ⟨n, .normal (List.mem_singleton_self _) n, hlink⟩
  simpa using hst

theorem Step.delivered {σ : State} {s port : Int} {f : Frame} (hf : σ.flight = [(s, port, f)])
    {n : Int} {pkt : Packet} (hp : Passes (T s) port 0 0 f [.port n (.plain pkt)])
    (hlink : links s n = none) :
    Step T links msg c vs σ (.forward s port f [.port n (.plain pkt)])
      ⟨[], σ.handed ++ [(s, n, pkt)], learn σ.learned s port [.port n (.plain pkt)]⟩ := by
  have hst : Step T links msg c vs σ (.forward s port f [.port n (.plain pkt)])
      ⟨[] ++ [] ++ [], σ.handed ++ [(s, n, pkt)],
        learn σ.learned s port [.port n (.plain pkt)]⟩ := by
    refine .forward hf hp [] (by simp) _ (fun a ha ↦ ?_)
    obtain rfl := List.mem_singleton.mp ha
    exact ⟨rfl, .port (List.mem_singleton_self _), hlink⟩
  simpa using hst

theorem demo_there : ∃ σ, Run DemoStep start demoThere σ ∧ σ.flight = [] ∧
    (1, 1, Demo.packet) ∈ σ.handed := by
  obtain ⟨m, entry, hr⟩ := Colocation.demo_activated.ruled
  have hsuf : Colocation.demoSites <:+ Colocation.demoSites := List.suffix_refl _
  have hprev := previous_apart (by decide : (Colocation.demoSites.map fun v ↦ v.dp.id).Nodup) hsuf
  have h4 : Passes (steered 2 Demo.app Demo.db 1 Demo.packetIn 4) 1 0 0 (.plain Demo.packet)
      [.normal demoFrame] := (passes_source hr rfl Colocation.demo_rooted.flow demo_ofChain).mpr rfl
  have htransit : ∀ s : Int, s ≠ 1 → Passes (steered 2 Demo.app Demo.db 1 Demo.packetIn s) 3 0 0
      demoFrame [.normal demoFrame] := fun s hs ↦ (passes_transit hr hsuf hs).mpr rfl
  have h1 : Passes (steered 2 Demo.app Demo.db 1 Demo.packetIn 1) 2 0 0 demoFrame
      [.port 1 (.plain Demo.packet)] := (passes_delivery hr hsuf hprev).mpr rfl
  have hcarried : ∃ σ, Run DemoStep start (demoThere.take 4) σ ∧ σ.flight = [(1, 2, demoFrame)] :=
    ⟨_, .cons (.enter (by decide) demo_ofChain) <|
      .cons (Step.carried (n := 2) rfl h4 rfl) <|
      .cons (Step.carried (n := 2) rfl (htransit 3 (by decide)) rfl) <|
      .one (Step.carried (n := 2) rfl (htransit 2 (by decide)) rfl), rfl⟩
  obtain ⟨σ, hrun, hflight⟩ := hcarried
  exact ⟨_, hrun.trans (.one (Step.delivered hflight h1 rfl)), rfl, by simp⟩

def singleSites : List Site := [⟨2, "00:00:00:00:00:02", ⟨2, 0⟩, 1⟩]

theorem single_activated :
    Activated 1 Demo.app Demo.singleDb 1 Demo.packetIn (deriveTypes Demo.flow1Single) Demo.flow1Match
      9 singleSites where
  placed :=
    { length_le := by decide
      id_ne_zero := by decide
      rows := by decide
      bidirectional := by decide
      locator := by decide
      connected := by decide
      attachments := by decide }
  ne_nil := by simp [singleSites]
  ofFlow := Demo.packetIn_ofFlow
  matched := ⟨⟨rfl, Demo.flow1Single_common⟩, rfl⟩
  ethType := by decide
  service := rfl
  fuel_le := by decide

theorem single_rooted : Rooted Demo.packetIn Demo.flow1Match singleSites where
  flow := by decide
  inPort := by decide
  port := by decide
  apart := by decide

def singleFrame : Frame :=
  .ether "00:00:00:00:00:02" "00:00:00:00:00:04" 9 1 (.plain Demo.packet)

def singleReturned : Packet := Demo.packet.withEthSrc "00:00:00:00:00:02"

def singleEvents : List Event :=
  [.enter Demo.packet,
   .forward 4 1 (.plain Demo.packet) [.normal singleFrame],
   .forward 3 3 singleFrame [.normal singleFrame],
   .forward 2 3 singleFrame [.port 1 (.plain Demo.packet)],
   .back ⟨2, "00:00:00:00:00:02", ⟨2, 0⟩, 1⟩ singleReturned,
   .forward 2 1 (.plain singleReturned) [.normal (.plain singleReturned)]]

abbrev SingleStep : State → Event → State → Prop :=
  Step (steered 1 Demo.app Demo.singleDb 1 Demo.packetIn) Colocation.demoCabling.far Demo.packetIn
    Demo.flow1Match singleSites

theorem single_run : ∃ σ, Run SingleStep start singleEvents σ := by
  obtain ⟨m, entry, hr⟩ := single_activated.ruled
  have hsuf : singleSites <:+ singleSites := List.suffix_refl _
  have hprev := previous_apart (by decide : (singleSites.map fun v ↦ v.dp.id).Nodup) hsuf
  have hpkt : OfChain Demo.flow1Match Demo.packet := single_rooted.ofChain Demo.packetIn_ofFlow
  have hreturned : OfChain Demo.flow1Match singleReturned := ⟨by decide, by decide⟩
  have h4 : Passes (steered 1 Demo.app Demo.singleDb 1 Demo.packetIn 4) 1 0 0 (.plain Demo.packet)
      [.normal singleFrame] := (passes_source hr rfl single_rooted.flow hpkt).mpr rfl
  have h3 : Passes (steered 1 Demo.app Demo.singleDb 1 Demo.packetIn 3) 3 0 0 singleFrame
      [.normal singleFrame] := (passes_transit hr hsuf (by decide)).mpr rfl
  have h2 : Passes (steered 1 Demo.app Demo.singleDb 1 Demo.packetIn 2) 3 0 0 singleFrame
      [.port 1 (.plain Demo.packet)] := (passes_delivery hr hsuf hprev).mpr rfl
  have hlast : Passes (steered 1 Demo.app Demo.singleDb 1 Demo.packetIn 2) 1 0 0
      (.plain singleReturned) [.normal (.plain singleReturned)] :=
    (passes_returned hr (single_rooted.own List.mem_cons_self) hsuf hreturned).mpr rfl
  have hgot : (2, 1, Demo.packet) ∈ start.handed ++ [(2, 1, Demo.packet)] := by simp
  exact ⟨_, .cons (.enter single_rooted.flow hpkt) <|
    .cons (Step.carried (n := 2) rfl h4 rfl) <|
    .cons (Step.carried (n := 2) rfl h3 rfl) <|
    .cons (Step.delivered rfl h2 rfl) <|
    .cons (.back List.mem_cons_self hgot hreturned) <|
    .one (Step.carried (n := 3) rfl hlast rfl)⟩

theorem single_harmless : ∀ e ∈ singleEvents, Harmless "00:00:00:00:00:04" singleSites e := by
  have hrest : ∀ {v : Site} {rest : List Site}, v :: rest <:+ singleSites →
      v = ⟨2, "00:00:00:00:00:02", ⟨2, 0⟩, 1⟩ ∧ rest = [] := by
    intro v rest hsuf
    rcases List.suffix_cons_iff.mp hsuf with heq | hnil
    · exact List.cons.inj heq
    · cases List.suffix_nil.mp hnil
  intro e he
  simp only [singleEvents, List.mem_cons, List.not_mem_nil, or_false] at he
  rcases he with rfl | rfl | rfl | rfl | rfl | rfl
  · trivial
  · intro v rest pkt hsuf hattach
    obtain ⟨rfl, rfl⟩ := hrest hsuf
    simp [Site.attachment] at hattach
  · intro v rest pkt hsuf hattach
    obtain ⟨rfl, rfl⟩ := hrest hsuf
    simp [Site.attachment] at hattach
  · intro v rest pkt hsuf hattach
    obtain ⟨rfl, rfl⟩ := hrest hsuf
    simp [Site.attachment] at hattach
  · trivial
  · intro v rest pkt hsuf _ hplain
    obtain ⟨rfl, rfl⟩ := hrest hsuf
    obtain rfl := Frame.plain.inj hplain
    exact ⟨rfl, by decide⟩

theorem clean_demo :
    (∀ before σ', before <+: singleEvents → Run SingleStep start before σ' →
      Clean "00:00:00:00:00:04" singleSites σ') ∧
    ∀ e ∈ singleEvents, Addressed singleSites e := by
  obtain ⟨σ, hrun⟩ := single_run
  have hlinks : ∀ v ∈ singleSites, ∀ s n, Colocation.demoCabling.far s n ≠ some v.attachment := by
    intro v hv s n
    obtain rfl := List.mem_singleton.mp hv
    simp only [Colocation.demoCabling]
    split_ifs <;> simp [Site.attachment]
  exact (clean_iff_harmless single_activated single_rooted hlinks hrun).mpr single_harmless

/-- When VNF 1 has sent the packet back with its own address, switch 1 learns the address of h4 at
the port of VNF 1. -/
theorem source_learned_at_vnf : ∃ σ, Run DemoStep start (demoThere ++ demoBack) σ ∧
    σ.learned 1 "00:00:00:00:00:04" = some 1 ∧
    ¬ Clean "00:00:00:00:00:04" Colocation.demoSites σ ∧
    ¬ ∀ e ∈ demoThere ++ demoBack, Addressed Colocation.demoSites e := by
  obtain ⟨m, entry, hr⟩ := Colocation.demo_activated.ruled
  obtain ⟨σ, hrun, hflight, hhanded⟩ := demo_there
  have hpkt : OfChain Demo.flow1Match demoReturned := ⟨by decide, by decide⟩
  have hp : Passes (steered 2 Demo.app Demo.db 1 Demo.packetIn 1) 1 0 0 (.plain demoReturned)
      [.normal demoEncapsulated] :=
    (passes_returned hr (Colocation.demo_rooted.own List.mem_cons_self) (List.suffix_refl _)
      hpkt).mpr rfl
  have hback : DemoStep σ (.back ⟨1, "00:00:00:00:00:01", ⟨1, 0⟩, 1⟩ demoReturned) _ :=
    .back List.mem_cons_self hhanded hpkt
  rw [hflight] at hback
  have hlearned : learn σ.learned 1 1 [.normal demoEncapsulated] 1 "00:00:00:00:00:04" = some 1 :=
    learn_of_returned _
  refine ⟨_, hrun.trans (.cons hback (.one (Step.carried (n := 2) rfl hp rfl))), hlearned,
    fun hclean ↦ ?_, fun haddr ↦ ?_⟩
  · exact hclean ⟨1, "00:00:00:00:00:01", ⟨1, 0⟩, 1⟩ List.mem_cons_self hlearned
  · have hlast : Addressed Colocation.demoSites
        (.forward 1 1 (.plain demoReturned) [.normal demoEncapsulated]) :=
      haddr _ (by simp [demoBack])
    have hsrc := hlast ⟨1, "00:00:00:00:00:01", ⟨1, 0⟩, 1⟩ List.mem_cons_self rfl _ _ _ _ _
      (List.mem_singleton_self _)
    exact absurd hsrc (by decide)

end Demo

end NshSfc.Learning
