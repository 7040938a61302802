import NshSfc.Ofproto

namespace NshSfc.NxStructs

open Library Python Ofproto

inductive Plain
  | setQueue | setTunnel | setTunnel64 | resubmit | resubmitTable | controller | pushMpls | popMpls
  | setMplsTtl | setMplsLabel | setMplsTc | sample | sample2 | finTimeout | conjunction | outputTrunc
deriving DecidableEq

structure NXActionResubmitTable where
  inPort : ℕ
  tableId : ℕ

structure NXActionController where
  maxLen : ℕ
  controllerId : ℕ
  reason : ℕ

structure NXActionSample where
  probability : ℕ
  collectorSetId : ℕ
  obsDomainId : ℕ
  obsPointId : ℕ

structure NXActionSample2 extends NXActionSample where
  samplingPort : ℕ

structure NXActionFinTimeout where
  finIdleTimeout : ℕ
  finHardTimeout : ℕ

structure NXActionConjunction where
  clause : ℕ
  nClauses : ℕ
  id : ℕ

structure NXActionOutputTrunc where
  port : ℕ
  maxLen : ℕ

section FmtStr

def NXActionSetQueue.fmtStr : Fmt ℕ := indentedBy 2 I

def NXActionSetTunnel.fmtStr : Fmt ℕ := indentedBy 2 I

def NXActionSetTunnel64.fmtStr : Fmt ℕ := indentedBy 6 Q

def NXActionResubmit.fmtStr : Fmt ℕ := paddedBy 4 H

def NXActionResubmitTable.fmtStr : Fmt NXActionResubmitTable :=
  (H.seq (paddedBy 3 B)).map (fun p ↦ ⟨p.1, p.2⟩) (fun a ↦ (a.inPort, a.tableId)) (fun _ ↦ rfl)
    fun _ ↦ rfl

def NXActionController.fmtStr : Fmt NXActionController :=
  (H.seq (H.seq (paddedBy 1 B))).map (fun p ↦ ⟨p.1, p.2.1, p.2.2⟩)
    (fun a ↦ (a.maxLen, a.controllerId, a.reason)) (fun _ ↦ rfl) fun _ ↦ rfl

def NXActionMplsBase.fmtStr : Fmt ℕ := paddedBy 4 H

def NXActionSetMplsTtl.fmtStr : Fmt ℕ := paddedBy 5 B

def NXActionSetMplsLabel.fmtStr : Fmt ℕ := indentedBy 2 I

def NXActionSetMplsTc.fmtStr : Fmt ℕ := paddedBy 5 B

def NXActionSample.fmtStr : Fmt NXActionSample :=
  (H.seq (I.seq (I.seq I))).map (fun p ↦ ⟨p.1, p.2.1, p.2.2.1, p.2.2.2⟩)
    (fun a ↦ (a.probability, a.collectorSetId, a.obsDomainId, a.obsPointId)) (fun _ ↦ rfl)
    fun _ ↦ rfl

def NXActionSample2.fmtStr : Fmt NXActionSample2 :=
  (H.seq (I.seq (I.seq (I.seq (paddedBy 6 H))))).map
    (fun p ↦ ⟨⟨p.1, p.2.1, p.2.2.1, p.2.2.2.1⟩, p.2.2.2.2⟩)
    (fun a ↦ (a.probability, a.collectorSetId, a.obsDomainId, a.obsPointId, a.samplingPort))
    (fun _ ↦ rfl) fun _ ↦ rfl

def NXActionFinTimeout.fmtStr : Fmt NXActionFinTimeout :=
  (H.seq (paddedBy 2 H)).map (fun p ↦ ⟨p.1, p.2⟩) (fun a ↦ (a.finIdleTimeout, a.finHardTimeout))
    (fun _ ↦ rfl) fun _ ↦ rfl

def NXActionConjunction.fmtStr : Fmt NXActionConjunction :=
  (B.seq (B.seq I)).map (fun p ↦ ⟨p.1, p.2.1, p.2.2⟩) (fun a ↦ (a.clause, a.nClauses, a.id))
    (fun _ ↦ rfl) fun _ ↦ rfl

def NXActionOutputTrunc.fmtStr : Fmt NXActionOutputTrunc :=
  (H.seq I).map (fun p ↦ ⟨p.1, p.2⟩) (fun a ↦ (a.port, a.maxLen)) (fun _ ↦ rfl) fun _ ↦ rfl

end FmtStr

namespace Plain

abbrev Fields : Plain → Type
  | .resubmitTable => NXActionResubmitTable
  | .controller => NXActionController
  | .sample => NXActionSample
  | .sample2 => NXActionSample2
  | .finTimeout => NXActionFinTimeout
  | .conjunction => NXActionConjunction
  | .outputTrunc => NXActionOutputTrunc
  | .setQueue | .setTunnel | .setTunnel64 | .resubmit | .pushMpls | .popMpls | .setMplsTtl
  | .setMplsLabel | .setMplsTc => ℕ

def fmtStr : (c : Plain) → Fmt c.Fields
  | .setQueue => NXActionSetQueue.fmtStr
  | .setTunnel => NXActionSetTunnel.fmtStr
  | .setTunnel64 => NXActionSetTunnel64.fmtStr
  | .resubmit => NXActionResubmit.fmtStr
  | .resubmitTable => NXActionResubmitTable.fmtStr
  | .controller => NXActionController.fmtStr
  | .pushMpls => NXActionMplsBase.fmtStr
  | .popMpls => NXActionMplsBase.fmtStr
  | .setMplsTtl => NXActionSetMplsTtl.fmtStr
  | .setMplsLabel => NXActionSetMplsLabel.fmtStr
  | .setMplsTc => NXActionSetMplsTc.fmtStr
  | .sample => NXActionSample.fmtStr
  | .sample2 => NXActionSample2.fmtStr
  | .finTimeout => NXActionFinTimeout.fmtStr
  | .conjunction => NXActionConjunction.fmtStr
  | .outputTrunc => NXActionOutputTrunc.fmtStr

section Code

variable (ryu : Ryu)

def parser (c : Plain) (buf : List UInt8) : Except PyError c.Fields := c.fmtStr.unpackFrom buf

def serializeBody (c : Plain) (a : c.Fields) : Except PyError (List UInt8) := do
  let packed ← c.fmtStr.pack a
  return ryu.msgPackInto [] 0 packed

end Code

variable {ryu : Ryu} {c : Plain} {a : c.Fields} {bs : List UInt8}

theorem serializeBody_eq_ok : c.serializeBody ryu a = .ok bs ↔ c.fmtStr.pack a = .ok bs := by
  constructor
  · intro h
    obtain ⟨packed, hpacked, h⟩ := bind_eq_ok h
    obtain rfl := Except.ok.inj h
    rw [ryu.msgPackInto_nil, hpacked]
  · intro h
    rw [serializeBody, h, ok_bind, ryu.msgPackInto_nil]
    rfl

theorem parser_append (h : c.serializeBody ryu a = .ok bs) (rest : List UInt8) :
    c.parser (bs ++ rest) = .ok a :=
  c.fmtStr.unpackFrom_append (serializeBody_eq_ok.mp h) rest

theorem length_serializeBody (h : c.serializeBody ryu a = .ok bs) : bs.length % 8 = 6 := by
  rw [c.fmtStr.length_pack (serializeBody_eq_ok.mp h)]
  cases c <;> rfl

end Plain

inductive Named
  | outputReg | outputReg2 | stackPush | stackPop | multipath
deriving DecidableEq

structure OutputReg where
  ofsNbits : ℕ
  maxLen : ℕ

structure Stack where
  start : ℕ
  end_ : ℕ

structure Multipath where
  fields : ℕ
  basis : ℕ
  algorithm : ℕ
  maxLink : ℕ
  arg : ℕ
  ofsNbits : ℕ

section FmtStr

def NXActionOutputReg.fmtStr : Fmt (OutputReg × { bs : List UInt8 // bs.length = 4 }) :=
  (H.seq ((bytes 4).seq (paddedBy 6 H))).map (fun p ↦ (⟨p.1, p.2.2⟩, p.2.1))
    (fun a ↦ (a.1.ofsNbits, a.2, a.1.maxLen)) (fun _ ↦ rfl) fun _ ↦ rfl

def NXActionOutputReg2.fmtStr : Fmt (OutputReg × { bs : List UInt8 // bs.length = 4 }) :=
  (H.seq (H.seq (bytes 4))).map (fun p ↦ (⟨p.1, p.2.1⟩, p.2.2))
    (fun a ↦ (a.1.ofsNbits, a.1.maxLen, a.2)) (fun _ ↦ rfl) fun _ ↦ rfl

def NXActionStackBase.fmtStr : Fmt (Stack × { bs : List UInt8 // bs.length = 4 }) :=
  (H.seq ((bytes 4).seq H)).map (fun p ↦ (⟨p.1, p.2.2⟩, p.2.1))
    (fun a ↦ (a.1.start, a.2, a.1.end_)) (fun _ ↦ rfl) fun _ ↦ rfl

def NXActionMultipath.fmtStr : Fmt (Multipath × { bs : List UInt8 // bs.length = 4 }) :=
  (H.seq ((paddedBy 2 H).seq (H.seq (H.seq ((paddedBy 2 I).seq (H.seq (bytes 4))))))).map
    (fun p ↦ (⟨p.1, p.2.1, p.2.2.1, p.2.2.2.1, p.2.2.2.2.1, p.2.2.2.2.2.1⟩, p.2.2.2.2.2.2))
    (fun a ↦ (a.1.fields, a.1.basis, a.1.algorithm, a.1.maxLink, a.1.arg, a.1.ofsNbits, a.2))
    (fun _ ↦ rfl) fun _ ↦ rfl

end FmtStr

namespace Named

abbrev Fields : Named → Type
  | .outputReg | .outputReg2 => OutputReg
  | .stackPush | .stackPop => Stack
  | .multipath => Multipath

def fmtStr : (c : Named) → Fmt (c.Fields × { bs : List UInt8 // bs.length = 4 })
  | .outputReg => NXActionOutputReg.fmtStr
  | .outputReg2 => NXActionOutputReg2.fmtStr
  | .stackPush => NXActionStackBase.fmtStr
  | .stackPop => NXActionStackBase.fmtStr
  | .multipath => NXActionMultipath.fmtStr

section Code

variable (ryu : Ryu)

/-- The padding behind the `struct`. The one of the stack actions is 2 bytes too short. -/
def fill (c : Named) (data : List UInt8) : List UInt8 :=
  match c with
  | .outputReg2 => ryu.msgPackInto data data.length (List.replicate (14 - data.length) 0)
  | .stackPush | .stackPop =>
    ryu.msgPackInto data data.length (List.replicate (12 - data.length) 0)
  | .outputReg | .multipath => data

/-- `'4s'` cuts a longer header off and fills a shorter one up. -/
def serializeBody (c : Named) (a : c.Fields) (field : String) : Except PyError (List UInt8) := do
  let oxmData ← ryu.header field
  let packed ← c.fmtStr.pack (a, clip 4 oxmData)
  return c.fill ryu (ryu.msgPackInto [] 0 packed)

def parser (c : Named) (buf : List UInt8) : Except PyError (c.Fields × String) := do
  let (a, oxmData) ← c.fmtStr.unpackFrom buf
  let (field, _) ← ryu.readHeader oxmData.1
  return (a, field)

end Code

variable {ryu : Ryu} {c : Named} {a : c.Fields} {field : String} {bs h : List UInt8}

theorem fill_eq (ryu : Ryu) (c : Named) (data : List UInt8) : ∃ k,
    c.fill ryu data = data ++ List.replicate k 0 := by
  cases c with
  | outputReg => exact ⟨0, (List.append_nil data).symm⟩
  | multipath => exact ⟨0, (List.append_nil data).symm⟩
  | outputReg2 => exact ⟨_, ryu.msgPackInto_end data _⟩
  | stackPush => exact ⟨_, ryu.msgPackInto_end data _⟩
  | stackPop => exact ⟨_, ryu.msgPackInto_end data _⟩

theorem serializeBody_eq_ok (hfield : ryu.Short field h) (hbs : c.serializeBody ryu a field = .ok bs) :
    ∃ packed, c.fmtStr.pack (a, ⟨h, hfield.length⟩) = .ok packed ∧ bs = c.fill ryu packed := by
  obtain ⟨oxmData, hoxm, hbs⟩ := bind_eq_ok hbs
  rw [hfield.header] at hoxm
  obtain rfl := Except.ok.inj hoxm
  obtain ⟨packed, hpacked, hbs⟩ := bind_eq_ok hbs
  rw [clip_of_length hfield.length] at hpacked
  obtain rfl := Except.ok.inj hbs
  exact ⟨packed, hpacked, by rw [ryu.msgPackInto_nil]⟩

theorem parser_append (hfield : ryu.Short field h) (hbs : c.serializeBody ryu a field = .ok bs)
    (rest : List UInt8) : c.parser ryu (bs ++ rest) = .ok (a, field) := by
  obtain ⟨packed, hpacked, rfl⟩ := serializeBody_eq_ok hfield hbs
  obtain ⟨k, hk⟩ := fill_eq ryu c packed
  have hread := hfield.readHeader []
  rw [List.append_nil] at hread
  rw [parser, hk, List.append_assoc, c.fmtStr.unpackFrom_append hpacked, ok_bind]
  dsimp only
  rw [hread]
  rfl

theorem length_serializeBody (hfield : ryu.Short field h) (hbs : c.serializeBody ryu a field = .ok bs) :
    bs.length % 8 = if c = .stackPush ∨ c = .stackPop then 4 else 6 := by
  obtain ⟨packed, hpacked, rfl⟩ := serializeBody_eq_ok hfield hbs
  have hlen := c.fmtStr.length_pack hpacked
  cases c with
  | outputReg => exact congrArg (· % 8) hlen
  | multipath => exact congrArg (· % 8) hlen
  | outputReg2 =>
    have height : packed.length = 8 := hlen
    rw [fill, ryu.msgPackInto_end, List.length_append, List.length_replicate, height]
    rfl
  | stackPush =>
    have height : packed.length = 8 := hlen
    rw [fill, ryu.msgPackInto_end, List.length_append, List.length_replicate, height]
    rfl
  | stackPop =>
    have height : packed.length = 8 := hlen
    rw [fill, ryu.msgPackInto_end, List.length_append, List.length_replicate, height]
    rfl

end Named

structure NXActionRegLoad where
  ofsNbits : ℕ
  dst : String
  value : ℕ

namespace NXActionRegLoad

def fmtStr : Fmt (ℕ × ℕ × ℕ) := H.seq (I.seq Q)

section Code

variable (ryu : Ryu)

/-- The number of the field is shifted out of the header "instead of using oxm_parse_header for
simplicity". -/
def parser (buf : List UInt8) : Except PyError NXActionRegLoad := do
  let (ofsNbits, dst, value) ← fmtStr.unpackFrom buf
  let dstName ← ryu.oxmToUserHeader (.field (dst >>> 9))
  return ⟨ofsNbits, dstName, value⟩

def serializeBody (a : NXActionRegLoad) : Except PyError (List UInt8) := do
  let hdrData ← ryu.header a.dst
  let dstNum ← I.unpackFrom hdrData
  let packed ← fmtStr.pack (a.ofsNbits, dstNum, a.value)
  return ryu.msgPackInto [] 0 packed

end Code

variable {ryu : Ryu} {a : NXActionRegLoad} {bs : List UInt8}

def Known (ryu : Ryu) (a : NXActionRegLoad) : Prop :=
  ∃ h, ryu.Short a.dst h ∧ ryu.oxmToUserHeader (.field (fromBytes h >>> 9)) = .ok a.dst

theorem parser_append (ha : a.Known ryu) (hbs : a.serializeBody ryu = .ok bs) (rest : List UInt8) :
    parser ryu (bs ++ rest) = .ok a := by
  obtain ⟨h, hfield, hshift⟩ := ha
  obtain ⟨hdrData, hheader, hbs⟩ := bind_eq_ok hbs
  rw [hfield.header] at hheader
  obtain rfl := Except.ok.inj hheader
  obtain ⟨dstNum, hnum, hbs⟩ := bind_eq_ok hbs
  obtain ⟨packed, hpacked, hbs⟩ := bind_eq_ok hbs
  obtain rfl := Except.ok.inj hbs
  have hvalue : dstNum = fromBytes h := by
    have hlong : ¬ h.length < 4 := by simp [hfield.length]
    have hread : I.unpackFrom h = .ok (fromBytes (h.take 4)) := if_neg hlong
    rw [hread, List.take_of_length_le hfield.length.le] at hnum
    exact (Except.ok.inj hnum).symm
  rw [ryu.msgPackInto_nil, parser, fmtStr.unpackFrom_append hpacked, ok_bind]
  dsimp only
  rw [hvalue, hshift]
  rfl

theorem length_serializeBody (hbs : a.serializeBody ryu = .ok bs) : bs.length = 14 := by
  obtain ⟨hdrData, -, hbs⟩ := bind_eq_ok hbs
  obtain ⟨dstNum, -, hbs⟩ := bind_eq_ok hbs
  obtain ⟨packed, hpacked, hbs⟩ := bind_eq_ok hbs
  obtain rfl := Except.ok.inj hbs
  rw [ryu.msgPackInto_nil]
  exact fmtStr.length_pack hpacked

end NXActionRegLoad

structure NXActionRegLoad2 where
  dst : String
  value : UserValue
  mask : Option UserValue

namespace NXActionRegLoad2

section Code

variable (ryu : Ryu)

def parser (buf : List UInt8) : Except PyError NXActionRegLoad2 := do
  let (dst, value, mask) ← ryu.oxmParse buf
  return ⟨dst, value, mask⟩

/-- A field of more than 14 bytes makes the number in the format of the padding negative. -/
def serializeBody (a : NXActionRegLoad2) : Except PyError (List UInt8) := do
  let data ← ryu.oxmSerialize a.dst a.value a.mask
  if data.length ≤ 14 then
    return ryu.msgPackInto data data.length (List.replicate (14 - data.length) 0)
  else .error .structError

end Code

variable {ryu : Ryu} {a : NXActionRegLoad2} {bs : List UInt8}

def Known (ryu : Ryu) (a : NXActionRegLoad2) : Prop :=
  ∃ data, ryu.oxmSerialize a.dst a.value a.mask = .ok data ∧
    ∀ rest, ryu.oxmParse (data ++ rest) = .ok (a.dst, a.value, a.mask)

theorem serializeBody_eq_ok (hbs : a.serializeBody ryu = .ok bs) : ∃ data,
    ryu.oxmSerialize a.dst a.value a.mask = .ok data ∧ data.length ≤ 14 ∧
      bs = data ++ List.replicate (14 - data.length) 0 := by
  obtain ⟨data, hdata, hbs⟩ := bind_eq_ok hbs
  split_ifs at hbs with hlen
  obtain rfl := Except.ok.inj hbs
  exact ⟨data, hdata, hlen, ryu.msgPackInto_end data _⟩

theorem parser_append (ha : a.Known ryu) (hbs : a.serializeBody ryu = .ok bs) (rest : List UInt8) :
    parser ryu (bs ++ rest) = .ok a := by
  obtain ⟨data, hdata, hread⟩ := ha
  obtain ⟨data', hdata', -, rfl⟩ := serializeBody_eq_ok hbs
  rw [hdata] at hdata'
  obtain rfl := Except.ok.inj hdata'
  rw [parser, List.append_assoc, hread]
  rfl

theorem length_serializeBody (hbs : a.serializeBody ryu = .ok bs) : bs.length = 14 := by
  obtain ⟨data, -, hlen, rfl⟩ := serializeBody_eq_ok hbs
  rw [List.length_append, List.length_replicate]
  omega

end NXActionRegLoad2

structure NXActionRegMove where
  srcField : String
  dstField : String
  nBits : ℕ
  srcOfs : ℕ
  dstOfs : ℕ

namespace NXActionRegMove

def fmtStr : Fmt (ℕ × ℕ × ℕ) := H.seq (H.seq H)

section Code

variable (ryu : Ryu)

def parser (buf : List UInt8) : Except PyError NXActionRegMove := do
  let (nBits, srcOfs, dstOfs) ← fmtStr.unpackFrom buf
  let rest := buf.drop fmtStr.size
  let (srcField, len) ← ryu.readHeader rest
  let rest := rest.drop len
  let (dstField, _) ← ryu.readHeader rest
  return { srcField, dstField, nBits, srcOfs, dstOfs }

def serializeBody (a : NXActionRegMove) : Except PyError (List UInt8) := do
  let packed ← fmtStr.pack (a.nBits, a.srcOfs, a.dstOfs)
  let data := ryu.msgPackInto [] 0 packed
  let src ← ryu.header a.srcField
  let data := ryu.msgPackInto data data.length src
  let dst ← ryu.header a.dstField
  return ryu.msgPackInto data data.length dst

end Code

variable {ryu : Ryu} {a : NXActionRegMove} {bs src dst : List UInt8}

theorem serializeBody_eq_ok (hsrc : ryu.Named a.srcField src) (hdst : ryu.Named a.dstField dst)
    (hbs : a.serializeBody ryu = .ok bs) : ∃ packed,
      fmtStr.pack (a.nBits, a.srcOfs, a.dstOfs) = .ok packed ∧ bs = packed ++ (src ++ dst) := by
  obtain ⟨packed, hpacked, hbs⟩ := bind_eq_ok hbs
  obtain ⟨src', hsrc', hbs⟩ := bind_eq_ok hbs
  rw [hsrc.header] at hsrc'
  obtain rfl := Except.ok.inj hsrc'
  obtain ⟨dst', hdst', hbs⟩ := bind_eq_ok hbs
  rw [hdst.header] at hdst'
  obtain rfl := Except.ok.inj hdst'
  obtain rfl := Except.ok.inj hbs
  refine ⟨packed, hpacked, ?_⟩
  rw [ryu.msgPackInto_end, ryu.msgPackInto_end, ryu.msgPackInto_nil, List.append_assoc]

theorem parser_append (hsrc : ryu.Named a.srcField src) (hdst : ryu.Named a.dstField dst)
    (hbs : a.serializeBody ryu = .ok bs) (rest : List UInt8) : parser ryu (bs ++ rest) = .ok a := by
  obtain ⟨packed, hpacked, rfl⟩ := serializeBody_eq_ok hsrc hdst hbs
  rw [parser, List.append_assoc, fmtStr.unpackFrom_append hpacked, ok_bind]
  dsimp only
  rw [fmtStr.drop_pack hpacked, List.append_assoc, hsrc.readHeader, ok_bind]
  dsimp only
  rw [List.drop_left, hdst.readHeader]
  rfl

theorem length_serializeBody (hsrc : ryu.Named a.srcField src) (hdst : ryu.Named a.dstField dst)
    (hbs : a.serializeBody ryu = .ok bs) : bs.length = 6 + (src.length + dst.length) := by
  obtain ⟨packed, hpacked, rfl⟩ := serializeBody_eq_ok hsrc hdst hbs
  rw [List.length_append, List.length_append, fmtStr.length_pack hpacked]
  rfl

end NXActionRegMove

end NshSfc.NxStructs
