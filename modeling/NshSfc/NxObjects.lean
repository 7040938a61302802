import NshSfc.LearnSpecs
import NshSfc.NxActions
import NshSfc.NxNat
import NshSfc.NxProperties
import NshSfc.NxSequences
import NshSfc.NxStructs

namespace NshSfc.NxObjects

open Library Python Ofproto NxActions FlowSpecs NxNat NxProperties NxSequences NxStructs

inductive Bare
  | popQueue | exit | decTtl | decMplsTtl | ctClear
deriving DecidableEq

inductive Body
  | bare (c : Bare)
  | nsh (a : NshAction)
  | plain (c : Plain) (a : c.Fields)
  | named (c : Named) (a : c.Fields) (field : String)
  | regLoad (a : NXActionRegLoad)
  | regLoad2 (a : NXActionRegLoad2)
  | regMove (a : NXActionRegMove)
  | note (ints : List ℕ)
  | decTtlCntIds (cntIds : List ℕ)
  | bundle (c : Bundle) (a : NXActionBundleBase)
  | nat (a : NXActionNAT)
  | learn (a : NXActionLearn)
  | controller2 (a : NXActionController2)
  | unknown (subtype : ℕ) (data : Option (List UInt8))

def Bare.nxClass : Bare → NxClass
  | .popQueue => .popQueue
  | .exit => .exit
  | .decTtl => .decTtl
  | .decMplsTtl => .decMplsTtl
  | .ctClear => .ctClear

def plainClass : Plain → NxClass
  | .setQueue => .setQueue
  | .setTunnel => .setTunnel
  | .setTunnel64 => .setTunnel64
  | .resubmit => .resubmit
  | .resubmitTable => .resubmitTable
  | .controller => .controller
  | .pushMpls => .pushMpls
  | .popMpls => .popMpls
  | .setMplsTtl => .setMplsTtl
  | .setMplsLabel => .setMplsLabel
  | .setMplsTc => .setMplsTc
  | .sample => .sample
  | .sample2 => .sample2
  | .finTimeout => .finTimeout
  | .conjunction => .conjunction
  | .outputTrunc => .outputTrunc

def namedClass : Named → NxClass
  | .outputReg => .outputReg
  | .outputReg2 => .outputReg2
  | .stackPush => .stackPush
  | .stackPop => .stackPop
  | .multipath => .multipath

def bundleClass : Bundle → NxClass
  | .bundle => .bundle
  | .bundleLoad => .bundleLoad

def Body.nxClass : Body → Option NxClass
  | .bare c => some c.nxClass
  | .nsh a => some (.nsh a)
  | .plain c _ => some (plainClass c)
  | .named c _ _ => some (namedClass c)
  | .regLoad _ => some .regLoad
  | .regLoad2 _ => some .regLoad2
  | .regMove _ => some .regMove
  | .note _ => some .note
  | .decTtlCntIds _ => some .decTtlCntIds
  | .bundle c _ => some (bundleClass c)
  | .nat _ => some .nat
  | .learn _ => some .learn
  | .controller2 _ => some .controller2
  | .unknown _ _ => none

def Body.subtype : Body → ℕ
  | .unknown subtype _ => subtype
  | b => b.nxClass.elim 0 NxClass.subtype

section Code

variable (ryu : Ryu)

def Body.serializeBody : Body → Except PyError (List UInt8)
  | .bare _ => .ok (ryu.msgPackInto [] 0 (List.replicate 6 0))
  | .nsh a => .ok (ryu.msgPackInto [] 0 a.packed)
  | .plain c a => c.serializeBody ryu a
  | .named c a field => c.serializeBody ryu a field
  | .regLoad a => a.serializeBody ryu
  | .regLoad2 a => a.serializeBody ryu
  | .regMove a => a.serializeBody ryu
  | .note ints => NXActionNote.serializeBody ryu ints
  | .decTtlCntIds cntIds => NXActionDecTtlCntIds.serializeBody ryu cntIds
  | .bundle _ a => a.serializeBody ryu
  | .nat a => a.serializeBody ryu
  | .learn a => a.serializeBody ryu
  | .controller2 a => a.serializeBody ryu
  | .unknown _ data => .ok (data.getD [])

def plain (c : Plain) (buf : List UInt8) : Except Stop Body := do
  let a ← (c.parser buf).mapError .raised
  return .plain c a

def named (c : Named) (buf : List UInt8) : Except Stop Body := do
  let (a, field) ← (c.parser ryu buf).mapError .raised
  return .named c a field

def bundle (c : Bundle) (buf : List UInt8) : Except Stop Body := do
  let a ← (NXActionBundleBase.parser ryu c buf).mapError .raised
  return .bundle c a

def parser (fuel : ℕ) (c : NxClass) (hc : c ≠ .ct) (buf : List UInt8) : Except Stop Body :=
  match c with
  | .popQueue => .ok (.bare .popQueue)
  | .exit => .ok (.bare .exit)
  | .decTtl => .ok (.bare .decTtl)
  | .decMplsTtl => .ok (.bare .decMplsTtl)
  | .ctClear => .ok (.bare .ctClear)
  | .nsh a => .ok (.nsh a)
  | .setQueue => plain .setQueue buf
  | .setTunnel => plain .setTunnel buf
  | .setTunnel64 => plain .setTunnel64 buf
  | .resubmit => plain .resubmit buf
  | .resubmitTable => plain .resubmitTable buf
  | .controller => plain .controller buf
  | .pushMpls => plain .pushMpls buf
  | .popMpls => plain .popMpls buf
  | .setMplsTtl => plain .setMplsTtl buf
  | .setMplsLabel => plain .setMplsLabel buf
  | .setMplsTc => plain .setMplsTc buf
  | .sample => plain .sample buf
  | .sample2 => plain .sample2 buf
  | .finTimeout => plain .finTimeout buf
  | .conjunction => plain .conjunction buf
  | .outputTrunc => plain .outputTrunc buf
  | .outputReg => named ryu .outputReg buf
  | .outputReg2 => named ryu .outputReg2 buf
  | .stackPush => named ryu .stackPush buf
  | .stackPop => named ryu .stackPop buf
  | .multipath => named ryu .multipath buf
  | .bundle => bundle ryu .bundle buf
  | .bundleLoad => bundle ryu .bundleLoad buf
  | .regLoad => do
    let a ← (NXActionRegLoad.parser ryu buf).mapError .raised
    return .regLoad a
  | .regLoad2 => do
    let a ← (NXActionRegLoad2.parser ryu buf).mapError .raised
    return .regLoad2 a
  | .regMove => do
    let a ← (NXActionRegMove.parser ryu buf).mapError .raised
    return .regMove a
  | .note => do
    let note ← (NXActionNote.parser buf).mapError .raised
    return .note note
  | .decTtlCntIds => do
    let cntIds ← (NXActionDecTtlCntIds.parser buf).mapError .raised
    return .decTtlCntIds cntIds
  | .nat => do
    let a ← (NXActionNAT.parser ryu buf).mapError .raised
    return .nat a
  | .learn => do
    let a ← NXActionLearn.parser ryu fuel buf
    return .learn a
  | .controller2 => do
    let a ← NxProperties.parser ryu fuel buf
    return .controller2 a
  | .ct => absurd rfl hc

end Code

def Body.Known (ryu : Ryu) : Body → Prop
  | .named _ _ field => ∃ h, ryu.Short field h
  | .regLoad a => a.Known ryu
  | .regLoad2 a => a.Known ryu
  | .regMove a => ∃ src dst, ryu.Named a.srcField src ∧ ryu.Named a.dstField dst
  | .bundle _ a => ∃ h, NXActionBundleBase.Dst ryu a.dst h
  | .nat a => a.Known ryu
  | .learn a => ∀ spec ∈ a.specs, spec.Known ryu
  | .bare _ | .nsh _ | .plain _ _ | .note _ | .decTtlCntIds _ | .controller2 _ | .unknown _ _ => True

/-- The object is read again from its body with `k` zeros behind it. -/
def Body.Kept (k : ℕ) : Body → Prop
  | .nsh a => a ≠ .encapNsh
  | .note ints => k = 0 ∧ ints.length % 8 = 6
  | .bundle c a =>
    a.nSlaves = a.slaves.length ∧ (c = .bundle → a.ofsNbits = 0 ∧ a.dst = none)
  | .nat a => (∀ n ∈ a.rangeProtoMin, n < 2 ^ 16) ∧ ∀ n ∈ a.rangeProtoMax, n < 2 ^ 16
  | .learn a => k % 2 = 0 ∧ ∀ spec ∈ a.specs, spec.Kept
  | .controller2 a => k = 0 ∧ a.pause ≠ some false
  | .unknown subtype data => k = 0 ∧ data ≠ none ∧ subtypes.lookup subtype = none
  | .bare _ | .plain _ _ | .named _ _ _ | .regLoad _ | .regLoad2 _ | .regMove _
  | .decTtlCntIds _ => True

/-- What is written is as long as announced, the 10 bytes before the body included. -/
def Body.Aligned (ryu : Ryu) : Body → Prop
  | .nsh a => a ≠ .decap
  | .named c _ _ => ¬ (c = .stackPush ∨ c = .stackPop)
  | .regMove a => ∀ src dst, ryu.header a.srcField = .ok src → ryu.header a.dstField = .ok dst →
    (src.length + dst.length) % 8 = 0
  | .bundle _ a => a.slaves ≠ []
  | .nat a => a.optionalSize % 8 = 0
  | .learn a => (a.specs.map NXFlowSpec.size).sum % 8 = 0
  | .controller2 a => a.userdata ≠ some []
  | .unknown _ data => (data.getD []).length % 8 = 6
  | .bare _ | .plain _ _ | .regLoad _ | .regLoad2 _ | .note _ | .decTtlCntIds _ => True

section Lengths

variable {ryu : Ryu} {b : Body} {bs : List UInt8}

theorem aligned_iff (hknown : b.Known ryu) (h : b.serializeBody ryu = .ok bs) :
    bs.length % 8 = 6 ↔ b.Aligned ryu := by
  cases b with
  | bare c =>
    obtain rfl := Except.ok.inj h
    rw [ryu.msgPackInto_nil]
    exact iff_of_true rfl trivial
  | nsh a =>
    obtain rfl := Except.ok.inj h
    rw [ryu.msgPackInto_nil, Body.Aligned]
    cases a <;> decide
  | plain c a => exact iff_of_true (Plain.length_serializeBody h) trivial
  | named c a field =>
    obtain ⟨header, hfield⟩ := hknown
    rw [Named.length_serializeBody hfield h, Body.Aligned]
    split_ifs with hstack <;> simp [hstack]
  | regLoad a =>
    rw [NXActionRegLoad.length_serializeBody h]
    exact iff_of_true rfl trivial
  | regLoad2 a =>
    rw [NXActionRegLoad2.length_serializeBody h]
    exact iff_of_true rfl trivial
  | regMove a =>
    obtain ⟨src, dst, hsrc, hdst⟩ := hknown
    rw [NXActionRegMove.length_serializeBody hsrc hdst h, Body.Aligned]
    constructor
    · intro hlen src' dst' hsrc' hdst'
      rw [hsrc.header] at hsrc'
      rw [hdst.header] at hdst'
      obtain rfl := Except.ok.inj hsrc'
      obtain rfl := Except.ok.inj hdst'
      omega
    · intro hlen
      have hsum := hlen src dst hsrc.header hdst.header
      omega
  | note ints =>
    rw [NXActionNote.length_serializeBody h]
    exact iff_of_true (NXActionNote.length_filled ints) trivial
  | decTtlCntIds cntIds => exact iff_of_true (NXActionDecTtlCntIds.length_serializeBody h) trivial
  | bundle c a =>
    obtain ⟨header, hdst⟩ := hknown
    rw [NXActionBundleBase.length_serializeBody hdst h, Body.Aligned]
    split_ifs with hslaves <;> simp [hslaves]
  | nat a =>
    rw [NXActionNAT.length_serializeBody hknown h, Body.Aligned]
    omega
  | learn a =>
    obtain ⟨packed, specs, hpacked, hspecs, rfl⟩ := NXActionLearn.serializeBody_eq_ok h
    have hlen : packed.length = 22 := NXActionLearn.fmt.length_pack hpacked
    rw [List.length_append, hlen, length_serializeSpecs hspecs, Body.Aligned]
    omega
  | controller2 a =>
    rw [NxProperties.length_serializeBody h, Body.Aligned]
    split_ifs with huser <;> simp [huser]
  | unknown subtype data =>
    obtain rfl := Except.ok.inj h
    rfl

end Lengths

section RoundTrip

variable {ryu : Ryu} {b : Body} {c : NxClass} {bs : List UInt8} {k fuel : ℕ}

theorem parser_plain (c : Plain) (hc : plainClass c ≠ .ct) (buf : List UInt8) :
    parser ryu fuel (plainClass c) hc buf = plain c buf := by
  cases c <;> rfl

theorem parser_named (c : Named) (hc : namedClass c ≠ .ct) (buf : List UInt8) :
    parser ryu fuel (namedClass c) hc buf = named ryu c buf := by
  cases c <;> rfl

theorem parser_bundle (c : Bundle) (hc : bundleClass c ≠ .ct) (buf : List UInt8) :
    parser ryu fuel (bundleClass c) hc buf = bundle ryu c buf := by
  cases c <;> rfl

theorem parser_bare (c : Bare) (hc : c.nxClass ≠ .ct) (buf : List UInt8) :
    parser ryu fuel c.nxClass hc buf = .ok (.bare c) := by
  cases c <;> rfl

def found : NxClass → NxClass
  | .nsh .encapNsh => .nsh .encapEther
  | c => c

theorem lookup_subtype (c : NxClass) : subtypes.lookup c.subtype = some (found c) := by
  cases c with
  | nsh a => cases a <;> rfl
  | _ => rfl

theorem found_eq (hclass : b.nxClass = some c) (hb : b ≠ .nsh .encapNsh) : found c = c := by
  cases b with
  | nsh a =>
    obtain rfl := Option.some.inj hclass
    cases a with
    | encapNsh => exact absurd rfl hb
    | encapEther => rfl
    | decap => rfl
    | decNshTtl => rfl
  | bare cl =>
    obtain rfl := Option.some.inj hclass
    cases cl <;> rfl
  | plain cl a =>
    obtain rfl := Option.some.inj hclass
    cases cl <;> rfl
  | named cl a field =>
    obtain rfl := Option.some.inj hclass
    cases cl <;> rfl
  | bundle cl a =>
    obtain rfl := Option.some.inj hclass
    cases cl <;> rfl
  | unknown subtype data => cases hclass
  | _ =>
    obtain rfl := Option.some.inj hclass
    rfl

theorem ok_of_mapError {α β ε : Type} {x : Except ε α} {f : ε → β} {a : α}
    (h : x.mapError f = .ok a) : x = .ok a := by
  cases x with
  | error e => cases h
  | ok a' => exact congrArg Except.ok (Except.ok.inj h)

theorem nxClass_of_parsed {hc : c ≠ .ct} {buf : List UInt8} (h : parser ryu fuel c hc buf = .ok b) :
    b.nxClass = some c := by
  cases c
  case ct => exact absurd rfl hc
  case popQueue | exit | decTtl | decMplsTtl | ctClear | nsh =>
    obtain rfl := Except.ok.inj h
    rfl
  all_goals
    obtain ⟨a, -, h⟩ := bind_eq_ok h
    obtain rfl := Except.ok.inj h
    rfl

/-- An object that is kept is read by its class from what was written for it. -/
theorem parser_serializeBody (hclass : b.nxClass = some c) (hc : c ≠ .ct)
    (hknown : b.Known ryu) (hkept : b.Kept k) (hk : k < 8) (h : b.serializeBody ryu = .ok bs)
    (hfuel : bs.length + k ≤ fuel) :
    parser ryu fuel c hc (bs ++ List.replicate k 0) = .ok b := by
  cases b with
  | bare cl =>
    obtain rfl := Option.some.inj hclass
    exact parser_bare cl hc _
  | nsh a =>
    obtain rfl := Option.some.inj hclass
    rfl
  | plain cl a =>
    obtain rfl := Option.some.inj hclass
    rw [parser_plain, plain, Plain.parser_append h]
    rfl
  | named cl a field =>
    obtain rfl := Option.some.inj hclass
    obtain ⟨header, hfield⟩ := hknown
    rw [parser_named, named, Named.parser_append hfield h]
    rfl
  | regLoad a =>
    obtain rfl := Option.some.inj hclass
    rw [parser, NXActionRegLoad.parser_append hknown h]
    rfl
  | regLoad2 a =>
    obtain rfl := Option.some.inj hclass
    rw [parser, NXActionRegLoad2.parser_append hknown h]
    rfl
  | regMove a =>
    obtain rfl := Option.some.inj hclass
    obtain ⟨src, dst, hsrc, hdst⟩ := hknown
    rw [parser, NXActionRegMove.parser_append hsrc hdst h]
    rfl
  | note ints =>
    obtain rfl := Option.some.inj hclass
    rw [parser, (NXActionNote.parser_serializeBody_iff h k).mpr hkept]
    rfl
  | decTtlCntIds cntIds =>
    obtain rfl := Option.some.inj hclass
    rw [parser, NXActionDecTtlCntIds.parser_append h]
    rfl
  | bundle cl a =>
    obtain rfl := Option.some.inj hclass
    obtain ⟨header, hdst⟩ := hknown
    rw [parser_bundle, bundle, (NXActionBundleBase.parser_serializeBody_iff hdst h _).mpr hkept]
    rfl
  | nat a =>
    obtain rfl := Option.some.inj hclass
    rw [parser, (NXActionNAT.parser_serializeBody_iff hknown h _).mpr hkept]
    rfl
  | learn a =>
    obtain rfl := Option.some.inj hclass
    obtain ⟨heven, hspecs⟩ := hkept
    obtain ⟨j, rfl⟩ := Nat.dvd_of_mod_eq_zero heven
    rw [parser, NXActionLearn.parser_serializeBody h
      (fun spec hspec ↦ ⟨hknown spec hspec, hspecs spec hspec⟩) (by omega)]
    rfl
  | controller2 a =>
    obtain rfl := Option.some.inj hclass
    rw [parser, (NxProperties.parser_serializeBody_iff h hk (by omega)).mpr hkept]
    rfl
  | unknown subtype data => cases hclass

theorem kept_of_parsed (hclass : b.nxClass = some c) (hc : c ≠ .ct) (hb : b ≠ .nsh .encapNsh)
    (hknown : b.Known ryu) (hk : k < 8) (hpad : k = 0 ∨ c ≠ .learn)
    (h : b.serializeBody ryu = .ok bs) (hfuel : bs.length ≤ fuel)
    (hparse : parser ryu fuel c hc (bs ++ List.replicate k 0) = .ok b) : b.Kept k := by
  cases b with
  | nsh a => exact fun ha ↦ hb (congrArg Body.nsh ha)
  | note ints =>
    obtain rfl := Option.some.inj hclass
    obtain ⟨ints', hread, hret⟩ := bind_eq_ok hparse
    obtain rfl := Body.note.inj (Except.ok.inj hret)
    exact (NXActionNote.parser_serializeBody_iff h k).mp (ok_of_mapError hread)
  | bundle cl a =>
    obtain rfl := Option.some.inj hclass
    obtain ⟨header, hdst⟩ := hknown
    rw [parser_bundle] at hparse
    obtain ⟨a', hread, hret⟩ := bind_eq_ok hparse
    obtain ⟨-, rfl⟩ := Body.bundle.inj (Except.ok.inj hret)
    exact (NXActionBundleBase.parser_serializeBody_iff hdst h _).mp (ok_of_mapError hread)
  | nat a =>
    obtain rfl := Option.some.inj hclass
    obtain ⟨a', hread, hret⟩ := bind_eq_ok hparse
    obtain rfl := Body.nat.inj (Except.ok.inj hret)
    exact (NXActionNAT.parser_serializeBody_iff hknown h _).mp (ok_of_mapError hread)
  | learn a =>
    obtain rfl := Option.some.inj hclass
    obtain rfl := hpad.resolve_right fun hne ↦ hne rfl
    obtain ⟨a', hread, hret⟩ := bind_eq_ok hparse
    obtain rfl := Body.learn.inj (Except.ok.inj hret)
    rw [List.replicate_zero, List.append_nil] at hread
    exact ⟨rfl, NXActionLearn.kept_of_parsed hknown h hread⟩
  | controller2 a =>
    obtain rfl := Option.some.inj hclass
    obtain ⟨a', hread, hret⟩ := bind_eq_ok hparse
    obtain rfl := Body.controller2.inj (Except.ok.inj hret)
    exact (NxProperties.parser_serializeBody_iff h hk hfuel).mp hread
  | unknown subtype data => cases hclass
  | _ => trivial

end RoundTrip

section Hanging

variable {ryu : Ryu} {c : NxClass} {buf : List UInt8} {fuel : ℕ}

theorem mapError_ne_outOfFuel {α : Type} (x : Except PyError α) :
    x.mapError Stop.raised ≠ .error .outOfFuel := by
  cases x with
  | error e => exact nofun
  | ok a => exact nofun

theorem bind_eq_outOfFuel {α β : Type} {x : Except Stop α} {f : α → Except Stop β}
    (h : (x >>= f) = .error .outOfFuel) :
    x = .error .outOfFuel ∨ ∃ a, x = .ok a ∧ f a = .error .outOfFuel := by
  cases x with
  | error e => exact .inl (congrArg Except.error (Except.error.inj h))
  | ok a => exact .inr ⟨a, rfl, h⟩

theorem parser_ends (hc : c ≠ .ct) (hcontroller : c ≠ .controller2) (hfuel : buf.length ≤ fuel) :
    parser ryu fuel c hc buf ≠ .error .outOfFuel := by
  intro h
  cases c
  case ct => exact hc rfl
  case controller2 => exact hcontroller rfl
  case popQueue | exit | decTtl | decMplsTtl | ctClear | nsh => cases h
  case learn =>
    obtain hloop | ⟨a, -, hret⟩ := bind_eq_outOfFuel h
    · exact NXActionLearn.parser_ends hfuel hloop
    · cases hret
  all_goals
    obtain hread | ⟨a, -, hret⟩ := bind_eq_outOfFuel h
    · exact mapError_ne_outOfFuel _ hread
    · cases hret

/-- Of the parsers only the one with the properties can run on for ever, and it does just when it
comes before user data with a length of 0. -/
theorem parser_hangs_iff (hc : c ≠ .ct) :
    (∀ fuel, parser ryu fuel c hc buf = .error .outOfFuel) ↔ c = .controller2 ∧
      ∃ n s, orbit (NxProperties.next ryu buf) ⟨6, {}⟩ n = some s ∧ NxProperties.Stuck buf s := by
  rw [← NxProperties.hangs_iff]
  constructor
  · intro h
    by_cases hcontroller : c = .controller2
    · subst hcontroller
      refine ⟨rfl, fun fuel ↦ ?_⟩
      obtain hloop | ⟨a, -, hret⟩ := bind_eq_outOfFuel (h fuel)
      · exact hloop
      · cases hret
    · exact absurd (h buf.length) (parser_ends hc hcontroller le_rfl)
  · intro ⟨hcontroller, hloop⟩ fuel
    subst hcontroller
    rw [parser, hloop fuel]
    rfl

theorem controller2_hangs : ¬ ∃ fuel, parser NxmFields.niciraRyu fuel .controller2 (by decide)
    [0, 0, 0, 0, 0, 0, 0, 3, 0, 0] ≠ .error .outOfFuel := by
  intro h
  obtain ⟨fuel, hends⟩ := h
  have hstuck : NxProperties.Stuck [0, 0, 0, 0, 0, 0, 0, 3, 0, 0] ⟨6, {}⟩ := ⟨by decide, rfl⟩
  exact hends ((parser_hangs_iff (by decide)).mpr ⟨rfl, 0, _, rfl, hstuck⟩ fuel)

end Hanging

end NshSfc.NxObjects
