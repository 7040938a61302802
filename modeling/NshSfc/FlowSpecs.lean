import NshSfc.Ofproto

namespace NshSfc.FlowSpecs

open Library Python Ofproto

structure Subfield where
  field : String
  ofs : ℕ
deriving DecidableEq

inductive Src
  | subfield (s : Subfield)
  | immediate (value : ℕ)
deriving DecidableEq

/-- The destination tells `NXFlowSpecMatch`, `NXFlowSpecLoad` and `NXFlowSpecOutput` apart. -/
inductive Dst
  | toMatch (s : Subfield)
  | load (s : Subfield)
  | output
deriving DecidableEq

structure NXFlowSpec where
  src : Src
  dst : Dst
  nBits : ℕ
deriving DecidableEq

def Dst.dstType : Dst → ℕ
  | .toMatch _ => 0
  | .load _ => 1
  | .output => 2

def Src.srcType : Src → ℕ
  | .subfield _ => 0
  | .immediate _ => 1

section Code

variable (ryu : Ryu)

def parseSubfield (buf : List UInt8) : Except PyError Subfield := do
  let (n, len) ← ryu.oxmParseHeader buf
  if len = 4 then do
    let field ← ryu.oxmToUserHeader n
    let rest := buf.drop len
    let ofs ← H.unpackFrom rest
    return ⟨field, ofs⟩
  else .error .assertionError

def serializeSubfield (s : Subfield) : Except PyError (List UInt8) := do
  let n ← ryu.oxmFromUserHeader s.field
  let buf ← ryu.oxmSerializeHeader n
  if buf.length = 4 then do
    let ofs ← H.pack s.ofs
    return ryu.msgPackInto buf 4 ofs
  else .error .assertionError

def srcLen (nBits : ℕ) : ℕ := (nBits + 15) / 16 * 2

def parseSrc (srcType nBits : ℕ) (rest : List UInt8) : Except PyError (Src × List UInt8) :=
  if srcType = 0 then do
    let src ← parseSubfield ryu rest
    return (.subfield src, rest.drop 6)
  else do
    let src ← ryu.intToUser (srcLen nBits) (rest.take (srcLen nBits))
    return (.immediate src, rest.drop (srcLen nBits))

def parseDst (dstType : ℕ) (rest : List UInt8) : Except PyError (Dst × List UInt8) :=
  if dstType = 0 then do
    let dst ← parseSubfield ryu rest
    return (.toMatch dst, rest.drop 6)
  else if dstType = 1 then do
    let dst ← parseSubfield ryu rest
    return (.load dst, rest.drop 6)
  else .ok (.output, rest)

/-- `_NXFlowSpec.parse`. A header of zeros is padding. No class is registered for the destination
type 3. -/
def parse (buf : List UInt8) : Except PyError (Option NXFlowSpec × List UInt8) := do
  let hdr ← H.unpackFrom buf
  let rest := buf.drop 2
  if hdr = 0 then return (none, rest)
  else do
    let srcType := (hdr >>> 13) &&& 0x1
    let dstType := (hdr >>> 11) &&& 0x3
    let nBits := hdr &&& 0x3ff
    if dstType = 3 then .error .keyError
    else do
      let (src, rest) ← parseSrc ryu srcType nBits rest
      let (dst, rest) ← parseDst ryu dstType rest
      return (some ⟨src, dst, nBits⟩, rest)

def serializeSrc (nBits : ℕ) : Src → Except PyError (List UInt8)
  | .subfield s => serializeSubfield ryu s
  | .immediate value => .ok (ryu.intFromUser (srcLen nBits) value)

def serializeDst : Dst → Except PyError (List UInt8)
  | .toMatch s | .load s => serializeSubfield ryu s
  | .output => .ok []

def NXFlowSpec.header (spec : NXFlowSpec) : ℕ :=
  (spec.src.srcType <<< 13) ||| (spec.dst.dstType <<< 11) ||| spec.nBits

def NXFlowSpec.serialize (spec : NXFlowSpec) : Except PyError (List UInt8) := do
  let val ← H.pack spec.header
  let buf := ryu.msgPackInto [] 0 val
  let src ← serializeSrc ryu spec.nBits spec.src
  let dst ← serializeDst ryu spec.dst
  return buf ++ src ++ dst

def parseSpecs : ℕ → List UInt8 → Except Stop (List NXFlowSpec)
  | _, [] => .ok []
  | 0, _ => .error .outOfFuel
  | fuel + 1, rest => do
    let (spec, rest) ← (parse ryu rest).mapError .raised
    let specs ← parseSpecs fuel rest
    return spec.toList ++ specs

def serializeSpecs (specs : List NXFlowSpec) (data : List UInt8) : Except PyError (List UInt8) :=
  specs.foldlM (fun data spec ↦ do return data ++ (← spec.serialize ryu)) data

end Code

section Header

variable {a b n : ℕ}

theorem or_eq_add {i : ℕ} (hn : n < 2 ^ i) (a : ℕ) : a * 2 ^ i ||| n = a * 2 ^ i + n := by
  rw [Nat.mul_comm, Nat.two_pow_add_eq_or_of_lt hn]

theorem header_eq (hb : b < 4) (hn : n < 2 ^ 11) :
    (a <<< 13) ||| (b <<< 11) ||| n = a * 2 ^ 13 + b * 2 ^ 11 + n := by
  have hlt : b * 2 ^ 11 + n < 2 ^ 13 := by omega
  rw [Nat.or_assoc, Nat.shiftLeft_eq, Nat.shiftLeft_eq, or_eq_add hn, or_eq_add hlt, Nat.add_assoc]

theorem and_nBits (n : ℕ) : n &&& 0x3ff = n % 2 ^ 10 := Nat.and_two_pow_sub_one_eq_mod n 10

theorem and_dstType (n : ℕ) : (n >>> 11) &&& 0x3 = n / 2 ^ 11 % 2 ^ 2 := by
  rw [Nat.shiftRight_eq_div_pow]
  exact Nat.and_two_pow_sub_one_eq_mod _ 2

theorem and_srcType (n : ℕ) : (n >>> 13) &&& 0x1 = n / 2 ^ 13 % 2 ^ 1 := by
  rw [Nat.shiftRight_eq_div_pow]
  exact Nat.and_two_pow_sub_one_eq_mod _ 1

end Header

section RoundTrip

variable {ryu : Ryu} {s : Subfield} {spec : NXFlowSpec} {bs buf rest : List UInt8}

def Subfield.Known (ryu : Ryu) (s : Subfield) : Prop := ∃ h, ryu.Short s.field h

theorem length_subfield (h : serializeSubfield ryu s = .ok bs) : bs.length = 6 := by
  obtain ⟨n, -, h⟩ := bind_eq_ok h
  obtain ⟨header, -, h⟩ := bind_eq_ok h
  split_ifs at h with hlen
  obtain ⟨ofs, hofs, h⟩ := bind_eq_ok h
  obtain rfl := Except.ok.inj h
  rw [← hlen, ryu.msgPackInto_end, List.length_append, H.length_pack hofs, hlen]
  rfl

theorem parseSubfield_append (hs : s.Known ryu) (h : serializeSubfield ryu s = .ok bs)
    (rest : List UInt8) : parseSubfield ryu (bs ++ rest) = .ok s := by
  obtain ⟨header, hnamed⟩ := hs
  obtain ⟨n, hn, h⟩ := bind_eq_ok h
  obtain ⟨header', hheader, h⟩ := bind_eq_ok h
  have hsame : header' = header := by
    have hnamed := hnamed.header
    rw [Ryu.header, hn] at hnamed
    exact Except.ok.inj (hheader.symm.trans hnamed)
  subst hsame
  rw [if_pos hnamed.length] at h
  obtain ⟨ofs, hofs, h⟩ := bind_eq_ok h
  obtain rfl := Except.ok.inj h
  rw [← hnamed.length, ryu.msgPackInto_end, List.append_assoc]
  have hread := hnamed.readHeader (ofs ++ rest)
  obtain ⟨⟨m, len⟩, hm, hread⟩ := bind_eq_ok hread
  obtain ⟨field, hfield, hread⟩ := bind_eq_ok hread
  obtain ⟨rfl, rfl⟩ := Prod.mk.inj (Except.ok.inj hread)
  rw [parseSubfield, hm, ok_bind]
  dsimp only
  rw [if_pos hnamed.length, hfield, ok_bind, List.drop_left,
    H.unpackFrom_append hofs]
  rfl

structure NXFlowSpec.Known (ryu : Ryu) (spec : NXFlowSpec) : Prop where
  src : ∀ s, spec.src = .subfield s → s.Known ryu
  dst : ∀ s, spec.dst = .toMatch s ∨ spec.dst = .load s → s.Known ryu

/-- The number of bits fits in 10 bits, an immediate value in its bytes, and the header is not the
one of padding. -/
structure NXFlowSpec.Kept (spec : NXFlowSpec) : Prop where
  nBits : spec.nBits < 2 ^ 10
  immediate : ∀ value, spec.src = .immediate value → value < 256 ^ srcLen spec.nBits
  header : ¬ (spec.src.srcType = 0 ∧ spec.dst.dstType = 0 ∧ spec.nBits = 0)

theorem length_src {n : ℕ} {src : Src} (h : serializeSrc ryu n src = .ok bs) :
    bs.length = if src.srcType = 0 then 6 else srcLen n := by
  cases src with
  | subfield s => exact length_subfield h
  | immediate value =>
    obtain rfl := Except.ok.inj h
    rw [ryu.intFromUser_eq]
    exact length_toBytes _ _

theorem length_dst {dst : Dst} (h : serializeDst ryu dst = .ok bs) :
    bs.length = if dst.dstType = 2 then 0 else 6 := by
  cases dst with
  | toMatch s => exact length_subfield h
  | load s => exact length_subfield h
  | output =>
    obtain rfl := Except.ok.inj h
    rfl

theorem parseSrc_append {n : ℕ} {src : Src} (hs : ∀ s, src = .subfield s → s.Known ryu)
    (hvalue : ∀ value, src = .immediate value → value < 256 ^ srcLen n)
    (h : serializeSrc ryu n src = .ok bs) (rest : List UInt8) :
    parseSrc ryu src.srcType n (bs ++ rest) = .ok (src, rest) := by
  cases src with
  | subfield s =>
    have hlen : bs.length = 6 := length_subfield h
    have htype : (Src.subfield s).srcType = 0 := rfl
    rw [parseSrc, if_pos htype, parseSubfield_append (hs s rfl) h, ok_bind, List.drop_left' hlen]
    rfl
  | immediate value =>
    have hlen : bs.length = srcLen n := length_src h
    obtain rfl := Except.ok.inj h
    have htype : ¬ (Src.immediate value).srcType = 0 := Nat.one_ne_zero
    have hlong : ¬ ((ryu.intFromUser (srcLen n) value ++ rest).take (srcLen n)).length < srcLen n := by
      rw [List.take_left' hlen, hlen]
      exact lt_irrefl _
    rw [parseSrc, if_neg htype, ryu.intToUser_eq, if_neg hlong, ok_bind, List.take_left' hlen,
      List.drop_left' hlen, List.take_of_length_le hlen.le, ryu.intFromUser_eq, fromBytes_toBytes,
      Nat.mod_eq_of_lt (hvalue value rfl)]
    rfl

theorem parseDst_append {dst : Dst} (hs : ∀ s, dst = .toMatch s ∨ dst = .load s → s.Known ryu)
    (h : serializeDst ryu dst = .ok bs) (rest : List UInt8) :
    parseDst ryu dst.dstType (bs ++ rest) = .ok (dst, rest) := by
  cases dst with
  | toMatch s =>
    have hlen : bs.length = 6 := length_subfield h
    have htype : (Dst.toMatch s).dstType = 0 := rfl
    rw [parseDst, if_pos htype, parseSubfield_append (hs s (.inl rfl)) h, ok_bind,
      List.drop_left' hlen]
    rfl
  | load s =>
    have hlen : bs.length = 6 := length_subfield h
    have hne : ¬ (Dst.load s).dstType = 0 := Nat.one_ne_zero
    have htype : (Dst.load s).dstType = 1 := rfl
    rw [parseDst, if_neg hne, if_pos htype, parseSubfield_append (hs s (.inr rfl)) h, ok_bind,
      List.drop_left' hlen]
    rfl
  | output =>
    obtain rfl := Except.ok.inj h
    rfl

theorem serialize_eq_ok (h : spec.serialize ryu = .ok bs) : ∃ val src dst,
    H.pack spec.header = .ok val ∧ serializeSrc ryu spec.nBits spec.src = .ok src ∧
      serializeDst ryu spec.dst = .ok dst ∧ bs = val ++ (src ++ dst) := by
  obtain ⟨val, hval, h⟩ := bind_eq_ok h
  obtain ⟨src, hsrc, h⟩ := bind_eq_ok h
  obtain ⟨dst, hdst, h⟩ := bind_eq_ok h
  obtain rfl := Except.ok.inj h
  refine ⟨val, src, dst, hval, hsrc, hdst, ?_⟩
  rw [ryu.msgPackInto_nil, List.append_assoc]

theorem dstType_lt (dst : Dst) : dst.dstType < 3 := by
  cases dst with
  | toMatch s => exact Nat.zero_lt_succ 2
  | load s => exact Nat.one_lt_succ_succ 1
  | output => exact Nat.lt_succ_self 2

theorem srcType_lt (src : Src) : src.srcType < 2 := by
  cases src with
  | subfield s => exact Nat.zero_lt_succ 1
  | immediate value => exact Nat.one_lt_two

theorem parse_append (hknown : spec.Known ryu) (hkept : spec.Kept)
    (h : spec.serialize ryu = .ok bs) (rest : List UInt8) :
    parse ryu (bs ++ rest) = .ok (some spec, rest) := by
  obtain ⟨val, src, dst, hval, hsrc, hdst, rfl⟩ := serialize_eq_ok h
  have hs := srcType_lt spec.src
  have hd := dstType_lt spec.dst
  have hn := hkept.nBits
  have hheader : spec.header = spec.src.srcType * 2 ^ 13 + spec.dst.dstType * 2 ^ 11 + spec.nBits :=
    header_eq (by omega) (by omega)
  have hne : ¬ spec.header = 0 := by
    have hzero := hkept.header
    omega
  have hsrcType : (spec.header >>> 13) &&& 0x1 = spec.src.srcType := by
    rw [and_srcType, hheader]
    omega
  have hdstType : (spec.header >>> 11) &&& 0x3 = spec.dst.dstType := by
    rw [and_dstType, hheader]
    omega
  have hnBits : spec.header &&& 0x3ff = spec.nBits := by
    rw [and_nBits, hheader]
    omega
  have hrest : (val ++ (src ++ dst) ++ rest).drop 2 = src ++ (dst ++ rest) := by
    rw [List.append_assoc, List.append_assoc]
    exact H.drop_pack hval _
  rw [parse, List.append_assoc, H.unpackFrom_append hval, ok_bind, ← List.append_assoc, hrest,
    if_neg hne]
  simp only [hsrcType, hdstType, hnBits]
  rw [if_neg hd.ne, parseSrc_append hknown.src hkept.immediate hsrc, ok_bind,
    parseDst_append hknown.dst hdst]
  rfl

theorem parse_eq_some (h : parse ryu buf = .ok (some spec, rest)) : ∃ hdr rest',
    H.unpackFrom buf = .ok hdr ∧ hdr ≠ 0 ∧ spec.nBits = hdr &&& 0x3ff ∧
      parseSrc ryu ((hdr >>> 13) &&& 0x1) spec.nBits (buf.drop 2) = .ok (spec.src, rest') ∧
      parseDst ryu ((hdr >>> 11) &&& 0x3) rest' = .ok (spec.dst, rest) := by
  obtain ⟨hdr, hhdr, h⟩ := bind_eq_ok h
  dsimp only at h
  split_ifs at h with hzero hthree
  · cases h
  · obtain ⟨⟨src, rest'⟩, hsrc, h⟩ := bind_eq_ok h
    obtain ⟨⟨dst, rest''⟩, hdst, h⟩ := bind_eq_ok h
    obtain ⟨hspec, rfl⟩ := Prod.mk.inj (Except.ok.inj h)
    obtain rfl := Option.some.inj hspec
    exact ⟨hdr, rest', hhdr, hzero, rfl, hsrc, hdst⟩

theorem immediate_lt {n t value : ℕ} (h : parseSrc ryu t n buf = .ok (.immediate value, rest)) :
    value < 256 ^ srcLen n := by
  rw [parseSrc] at h
  split_ifs at h with htype
  · obtain ⟨s, -, h⟩ := bind_eq_ok h
    cases h
  · obtain ⟨src, hsrc, h⟩ := bind_eq_ok h
    cases h
    rw [ryu.intToUser_eq] at hsrc
    split_ifs at hsrc with hlong
    obtain rfl := Except.ok.inj hsrc
    have hlt := fromBytes_lt ((buf.take (srcLen n)).take (srcLen n))
    rw [List.take_take, min_self] at hlt ⊢
    rw [List.length_take, not_lt] at hlong
    rwa [List.length_take, le_antisymm (min_le_left _ _) hlong] at hlt

theorem kept_of_parse {tail : List UInt8} (h : spec.serialize ryu = .ok bs)
    (hparse : parse ryu (bs ++ tail) = .ok (some spec, rest)) : spec.Kept := by
  obtain ⟨val, src, dst, hval, -, -, rfl⟩ := serialize_eq_ok h
  obtain ⟨hdr, rest', hhdr, hne, hn, hsrc, -⟩ := parse_eq_some hparse
  rw [List.append_assoc, H.unpackFrom_append hval] at hhdr
  obtain rfl := Except.ok.inj hhdr
  have hbits : spec.nBits < 2 ^ 10 := by
    rw [hn, and_nBits]
    exact Nat.mod_lt _ (Nat.two_pow_pos 10)
  refine ⟨hbits, fun value hvalue ↦ ?_, fun hzero ↦ ?_⟩
  · rw [hvalue] at hsrc
    exact immediate_lt hsrc
  · refine hne ?_
    rw [NXFlowSpec.header, hzero.1, hzero.2.1, hzero.2.2]
    rfl

end RoundTrip

end NshSfc.FlowSpecs
