import NshSfc.App
import NshSfc.Packets

namespace NshSfc.Pipeline

open Library OpenFlow App Packets

/-- A frame in the network. An outer Ethernet header is only ever pushed on an NSH header. -/
inductive Frame
  | plain (pkt : Packet)
  | nsh (spi si : Int) (inner : Frame)
  | ether (dst src : String) (spi si : Int) (inner : Frame)

/-- The fields that a switch extracts: those of the outermost headers, where path and index of an
NSH header have four bytes and one. -/
def Frame.fields : Frame → FieldMatch
  | .plain pkt => pkt.fields
  | .nsh spi si _ => fun
    | .nshSpi => some (.int (nshSpi spi))
    | .nshSi => some (.int (nshSi si))
    | _ => none
  | .ether dst src spi si _ => fun
    | .ethDst => some (.str dst)
    | .ethSrc => some (.str src)
    | .ethType => some (.int 0x894F)
    | .nshSpi => some (.int (nshSpi spi))
    | .nshSi => some (.int (nshSi si))
    | _ => none

def Frame.header (f : Frame) (inPort : Int) : FieldMatch := f.fields.set .inPort (some (.int inPort))

section Header

variable (dst src : String) (spi si p : Int) (f : Frame)

@[simp] theorem ether_header_ethType :
    (Frame.ether dst src spi si f).header p .ethType = some (.int 0x894F) := rfl

@[simp] theorem ether_header_ethDst :
    (Frame.ether dst src spi si f).header p .ethDst = some (.str dst) := rfl

@[simp] theorem ether_header_nshSpi :
    (Frame.ether dst src spi si f).header p .nshSpi = some (.int (nshSpi spi)) := rfl

@[simp] theorem ether_header_nshSi :
    (Frame.ether dst src spi si f).header p .nshSi = some (.int (nshSi si)) := rfl

theorem le_header_of_inPort_none {m : FieldMatch} (hm : m .inPort = none) :
    m ≤ f.header p ↔ m ≤ f.fields :=
  ⟨Match.le_of_le_set hm, fun h ↦ Match.le_set hm h _⟩

end Header

section Header

variable {dst src : String} {spi si p : Int} {f : Frame}

theorem matchNsh_le_header : OFPMatch.fields matchNsh ≤ (Frame.ether dst src spi si f).header p :=
  fields_cons_le rfl (fields_nil_le _)

theorem matchSpiSi_le_header :
    OFPMatch.fields (matchSpiSi spi si) ≤ (Frame.ether dst src spi si f).header p :=
  fields_cons_le rfl (fields_cons_le rfl (fields_cons_le rfl (fields_nil_le _)))

theorem matchHop_le_header :
    OFPMatch.fields (matchHop dst spi si) ≤ (Frame.ether dst src spi si f).header p :=
  fields_cons_le rfl (fields_cons_le rfl (fields_cons_le rfl (fields_cons_le rfl (fields_nil_le _))))

end Header

/-- What leaves a switch. A packet sent to the controller carries its table and metadata. -/
inductive Out
  | port (n : Int) (f : Frame)
  | normal (f : Frame)
  | controller (table : ℕ) (metadata : BitVec 64) (f : Frame)

def emit (inPort : Int) (t : ℕ) (md : BitVec 64) (f : Frame) : Port → List Out
  | .phys n => if n = inPort then [] else [.port n f]
  | .controller => [.controller t md f]
  | .normal => [.normal f]

/-- An action other than an output; `none` drops the frame. A new NSH header has SPI 0 and
service index 255, a new Ethernet header has zero addresses. -/
def applyAction : Frame → Action → Option Frame
  | f, .encapNsh => some (.nsh 0 255 f)
  | .nsh spi si f, .encapEther => some (.ether "00:00:00:00:00:00" "00:00:00:00:00:00" spi si f)
  | .ether _ _ spi si f, .decap => some (.nsh spi si f)
  | .nsh _ _ f, .decap => some f
  | .nsh _ si f, .setField .nshSpi (.int spi) => some (.nsh spi si f)
  | .nsh spi _ f, .setField .nshSi (.int si) => some (.nsh spi si f)
  | .ether dst src _ si f, .setField .nshSpi (.int spi) => some (.ether dst src spi si f)
  | .ether dst src spi _ f, .setField .nshSi (.int si) => some (.ether dst src spi si f)
  | .ether _ src spi si f, .setField .ethDst (.str dst) => some (.ether dst src spi si f)
  | .ether dst _ spi si f, .setField .ethSrc (.str src) => some (.ether dst src spi si f)
  | .plain pkt, .setField .ethDst (.str dst) => some (.plain (pkt.withEthDst dst))
  | .plain pkt, .setField .ethSrc (.str src) => some (.plain (pkt.withEthSrc src))
  | _, _ => none

section Instructions

variable (inPort : Int) (t : ℕ)

def runActions (md : BitVec 64) : Frame → List Action → List Out × Option Frame
  | f, [] => ([], some f)
  | f, .output port :: as =>
    let (outs, f') := runActions md f as
    (emit inPort t md f port ++ outs, f')
  | f, a :: as =>
    match applyAction f a with
    | some f' => runActions md f' as
    | none => ([], none)

def writeMetadata (md : BitVec 64) (metadata : Int) (mask : ℕ) : BitVec 64 :=
  (md &&& ~~~(BitVec.ofNat 64 mask)) ||| (BitVec.ofInt 64 metadata &&& BitVec.ofNat 64 mask)

def runInstructions : BitVec 64 → Frame → List Instruction →
    List Out × Option (ℕ × BitVec 64 × Frame)
  | _, _, [] => ([], none)
  | md, f, .applyActions as :: is =>
    match runActions inPort t md f as with
    | (outs, some f') =>
      let (outs', next) := runInstructions md f' is
      (outs ++ outs', next)
    | (outs, none) => (outs, none)
  | md, f, .writeMetadata metadata mask :: is => runInstructions (writeMetadata md metadata mask) f is
  | md, f, .gotoTable t' :: _ => ([], some (t', md, f))

end Instructions

section FlowInstructions

variable {inPort : Int} {t : ℕ} {md : BitVec 64} {f f' : Frame} {as : List Action} {outs : List Out}

theorem run_flowInstructions (h : runActions inPort t md f as = (outs, some f')) (metadata : Option Int)
    (t' : ℕ) : ∃ md', runInstructions inPort t md f (flowInstructions as metadata (some (t' + 1))) =
      (outs, some (t' + 1, md', f')) := by
  cases metadata with
  | none => exact ⟨md, by simp [flowInstructions, runInstructions, h]⟩
  | some v =>
    by_cases hv : v = 0
    · exact ⟨md, by simp [flowInstructions, runInstructions, h, hv]⟩
    · exact ⟨writeMetadata md v 0xffffffff, by simp [flowInstructions, runInstructions, h, hv]⟩

theorem run_flowInstructions_last (h : runActions inPort t md f as = (outs, some f'))
    (metadata : Option Int) :
    runInstructions inPort t md f (flowInstructions as metadata none) = (outs, none) := by
  simp [flowInstructions, runInstructions, h]

end FlowInstructions

/-- A frame that came in at `inPort` passes the tables of a switch from table `t` on. Where
entries of one priority overlap, the switch may choose any of them. -/
inductive Passes (T : SwitchTable) (inPort : Int) : ℕ → BitVec 64 → Frame → List Out → Prop
  | miss {t : ℕ} {md : BitVec 64} {f : Frame} (h : ∀ k i, ¬ T.Applies t (f.header inPort) k i) :
      Passes T inPort t md f []
  | stop {t : ℕ} {md : BitVec 64} {f : Frame} {k : FlowKey} {i : List Instruction} {outs : List Out}
      (h : T.Hits t (f.header inPort) k i) (hi : runInstructions inPort t md f i = (outs, none)) :
      Passes T inPort t md f outs
  | goto {t : ℕ} {md : BitVec 64} {f : Frame} {k : FlowKey} {i : List Instruction} {outs : List Out}
      {t' : ℕ} {md' : BitVec 64} {f' : Frame} {outs' : List Out}
      (h : T.Hits t (f.header inPort) k i)
      (hi : runInstructions inPort t md f i = (outs, some (t', md', f')))
      (hrest : Passes T inPort t' md' f' outs') : Passes T inPort t md f (outs ++ outs')

def After (T : SwitchTable) (inPort : Int) (outs : List Out) :
    List Out × Option (ℕ × BitVec 64 × Frame) → Prop
  | (sent, none) => outs = sent
  | (sent, some (t, md, f)) => ∃ outs', outs = sent ++ outs' ∧ Passes T inPort t md f outs'

theorem passes_hits {T : SwitchTable} {inPort : Int} {t : ℕ} {md : BitVec 64} {f : Frame}
    {outs : List Out} (h : Passes T inPort t md f outs) :
    (outs = [] ∧ ∀ k i, ¬ T.Applies t (f.header inPort) k i) ∨ ∃ k i, T.Hits t (f.header inPort) k i ∧
      After T inPort outs (runInstructions inPort t md f i) := by
  cases h with
  | miss hmiss => exact .inl ⟨rfl, hmiss⟩
  | @stop _ _ _ k i _ hit hi =>
    refine .inr ⟨k, i, hit, ?_⟩
    rw [hi]
    rfl
  | @goto _ _ _ k i _ _ _ _ outs' hit hi hrest =>
    refine .inr ⟨k, i, hit, ?_⟩
    rw [hi]
    exact ⟨outs', rfl, hrest⟩

section Selects

variable {T : SwitchTable} {inPort : Int} {t t' : ℕ} {md md' : BitVec 64} {f f' : Frame} {k : FlowKey}
  {i : List Instruction} {outs outs' : List Out}

theorem passes_stop_iff (h : T.Selects t (f.header inPort) k i)
    (hi : runInstructions inPort t md f i = (outs, none)) :
    Passes T inPort t md f outs' ↔ outs' = outs := by
  constructor
  · intro hp
    cases hp with
    | miss hmiss => exact absurd h.toApplies (hmiss k i)
    | stop hit hi' =>
      rw [(h.eq_of_hits hit).2, hi] at hi'
      exact (Prod.mk.inj hi').1.symm
    | goto hit hi' hrest =>
      rw [(h.eq_of_hits hit).2, hi] at hi'
      cases hi'
  · rintro rfl
    exact .stop h.hits hi

theorem passes_goto_iff (h : T.Selects t (f.header inPort) k i)
    (hi : runInstructions inPort t md f i = ([], some (t', md', f'))) :
    Passes T inPort t md f outs' ↔ Passes T inPort t' md' f' outs' := by
  constructor
  · intro hp
    cases hp with
    | miss hmiss => exact absurd h.toApplies (hmiss k i)
    | stop hit hi' =>
      rw [(h.eq_of_hits hit).2, hi] at hi'
      cases hi'
    | goto hit hi' hrest =>
      rw [(h.eq_of_hits hit).2, hi] at hi'
      cases hi'
      exact hrest
  · intro hp
    exact .goto h.hits hi hp

end Selects

end NshSfc.Pipeline
