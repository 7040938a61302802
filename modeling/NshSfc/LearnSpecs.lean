import NshSfc.FlowSpecs
import NshSfc.NxmFields

namespace NshSfc.FlowSpecs

open Library Python Ofproto NxmFields

section Loop

variable {ryu : Ryu} {specs : List NXFlowSpec} {data bs buf rest : List UInt8} {fuel : ℕ}

theorem six_le {s : Subfield} (h : parseSubfield ryu buf = .ok s) : 6 ≤ buf.length := by
  obtain ⟨⟨n, len⟩, -, h⟩ := bind_eq_ok h
  dsimp only at h
  split_ifs at h with hlen
  obtain ⟨field, -, h⟩ := bind_eq_ok h
  obtain ⟨ofs, hofs, -⟩ := bind_eq_ok h
  have htwo : 2 ≤ (buf.drop len).length := H.size_le hofs
  rw [List.length_drop] at htwo
  omega

def Src.size (nBits : ℕ) : Src → ℕ
  | .subfield _ => 6
  | .immediate _ => srcLen nBits

def Dst.size : Dst → ℕ
  | .toMatch _ | .load _ => 6
  | .output => 0

def NXFlowSpec.size (spec : NXFlowSpec) : ℕ := 2 + spec.src.size spec.nBits + spec.dst.size

theorem length_serialize {spec : NXFlowSpec} (h : spec.serialize ryu = .ok bs) :
    bs.length = spec.size := by
  obtain ⟨val, src, dst, hval, hsrc, hdst, rfl⟩ := serialize_eq_ok h
  have hsrcLen : src.length = spec.src.size spec.nBits := by
    rw [length_src hsrc]
    cases spec.src <;> rfl
  have hdstLen : dst.length = spec.dst.size := by
    rw [length_dst hdst]
    cases spec.dst <;> rfl
  rw [List.length_append, List.length_append, H.length_pack hval, hsrcLen, hdstLen, ← Nat.add_assoc]
  rfl

theorem size_pos (spec : NXFlowSpec) : 0 < spec.size := by
  rw [NXFlowSpec.size]
  omega

theorem size_even (spec : NXFlowSpec) : spec.size % 2 = 0 := by
  obtain ⟨src, dst, n⟩ := spec
  cases src <;> cases dst <;> simp only [NXFlowSpec.size, Src.size, Dst.size, srcLen] <;> omega

theorem parseSrc_size {t n : ℕ} {src : Src} (h : parseSrc ryu t n buf = .ok (src, rest)) :
    buf.length = src.size n + rest.length := by
  rw [parseSrc] at h
  split_ifs at h
  · obtain ⟨s, hs, h⟩ := bind_eq_ok h
    obtain ⟨rfl, rfl⟩ := Prod.mk.inj (Except.ok.inj h)
    have hlong := six_le hs
    rw [List.length_drop, Src.size]
    omega
  · obtain ⟨value, hvalue, h⟩ := bind_eq_ok h
    obtain ⟨rfl, rfl⟩ := Prod.mk.inj (Except.ok.inj h)
    rw [ryu.intToUser_eq] at hvalue
    split_ifs at hvalue with hlong
    rw [List.length_take] at hlong
    rw [List.length_drop, Src.size]
    omega

theorem parseDst_size {t : ℕ} {dst : Dst} (h : parseDst ryu t buf = .ok (dst, rest)) :
    buf.length = dst.size + rest.length := by
  rw [parseDst] at h
  split_ifs at h
  case neg =>
    obtain ⟨rfl, rfl⟩ := Prod.mk.inj (Except.ok.inj h)
    exact (Nat.zero_add _).symm
  all_goals
    obtain ⟨s, hs, h⟩ := bind_eq_ok h
    obtain ⟨rfl, rfl⟩ := Prod.mk.inj (Except.ok.inj h)
    have hlong := six_le hs
    rw [List.length_drop, Dst.size]
    omega

def taken : Option NXFlowSpec → ℕ
  | none => 2
  | some spec => spec.size

theorem parse_size {spec : Option NXFlowSpec} (h : parse ryu buf = .ok (spec, rest)) :
    buf.length = taken spec + rest.length := by
  have hdrop (hdr : ℕ) (hhdr : H.unpackFrom buf = .ok hdr) :
      buf.length = 2 + (buf.drop 2).length := by
    have htwo : 2 ≤ buf.length := H.size_le hhdr
    rw [List.length_drop]
    omega
  cases spec with
  | none =>
    obtain ⟨hdr, hhdr, h⟩ := bind_eq_ok h
    dsimp only at h
    split_ifs at h with hzero hthree
    · obtain ⟨-, rfl⟩ := Prod.mk.inj (Except.ok.inj h)
      exact hdrop hdr hhdr
    · obtain ⟨src, -, h⟩ := bind_eq_ok h
      obtain ⟨dst, -, h⟩ := bind_eq_ok h
      cases h
  | some spec =>
    obtain ⟨hdr, rest', hhdr, -, -, hsrc, hdst⟩ := parse_eq_some h
    rw [hdrop hdr hhdr, parseSrc_size hsrc, parseDst_size hdst, taken, NXFlowSpec.size]
    omega

theorem parse_rest {spec : Option NXFlowSpec} (h : parse ryu buf = .ok (spec, rest)) :
    rest.length < buf.length := by
  have hsize := parse_size h
  have hpos : 0 < taken spec := by
    cases spec with
    | none => exact Nat.zero_lt_two
    | some spec => exact size_pos spec
  omega

@[simp] theorem parseSpecs_nil (fuel : ℕ) : parseSpecs ryu fuel [] = .ok [] := by
  cases fuel <;> rfl

theorem parseSpecs_of_parse {spec : Option NXFlowSpec} (h : parse ryu buf = .ok (spec, rest)) :
    parseSpecs ryu (fuel + 1) buf = (do
      let specs ← parseSpecs ryu fuel rest
      return spec.toList ++ specs) := by
  cases buf with
  | nil =>
    have hrest := parse_rest h
    simp at hrest
  | cons b buf =>
    rw [parseSpecs, h]
    · rfl
    · simp

/-- The loop over the specifications ends: each of them, padding too, takes bytes away. -/
theorem parseSpecs_ends (ryu : Ryu) (hfuel : buf.length ≤ fuel) :
    parseSpecs ryu fuel buf ≠ .error .outOfFuel := by
  induction fuel generalizing buf with
  | zero =>
    obtain rfl := List.eq_nil_of_length_eq_zero (Nat.le_zero.mp hfuel)
    rw [parseSpecs_nil]
    exact nofun
  | succ fuel ih =>
    cases hparse : parse ryu buf with
    | error e =>
      cases buf with
      | nil => exact nofun
      | cons b buf =>
        rw [parseSpecs, hparse]
        · exact nofun
        · simp
    | ok p =>
      obtain ⟨spec, rest⟩ := p
      have hrest := parse_rest hparse
      have hend : parseSpecs ryu fuel rest ≠ .error .outOfFuel := ih (by omega)
      rw [parseSpecs_of_parse hparse]
      cases hloop : parseSpecs ryu fuel rest with
      | error e =>
        rw [hloop] at hend
        intro hstop
        cases hstop
        exact hend rfl
      | ok specs => exact nofun

theorem parse_zeros (rest : List UInt8) : parse ryu ([0, 0] ++ rest) = .ok (none, rest) := by
  have hpack : H.pack 0 = .ok [0, 0] := rfl
  rw [parse, H.unpackFrom_append hpack, ok_bind]
  rfl

theorem parseSpecs_zeros {k : ℕ} (hfuel : k ≤ fuel) :
    parseSpecs ryu fuel (List.replicate (2 * k) 0) = .ok [] := by
  induction k generalizing fuel with
  | zero => exact parseSpecs_nil fuel
  | succ k ih =>
    obtain ⟨fuel, rfl⟩ := Nat.exists_eq_add_of_le' (Nat.one_le_of_lt hfuel)
    have hzeros : List.replicate (2 * (k + 1)) (0 : UInt8) = [0, 0] ++ List.replicate (2 * k) 0 := rfl
    rw [hzeros, parseSpecs_of_parse (parse_zeros _), ih (by omega)]
    rfl

theorem serializeSpecs_cons {spec : NXFlowSpec}
    (h : serializeSpecs ryu (spec :: specs) data = .ok buf) :
    ∃ cs, spec.serialize ryu = .ok cs ∧ serializeSpecs ryu specs (data ++ cs) = .ok buf := by
  obtain ⟨data', hdata, h⟩ := bind_eq_ok h
  obtain ⟨cs, hcs, hdata⟩ := bind_eq_ok hdata
  obtain rfl := Except.ok.inj hdata
  exact ⟨cs, hcs, h⟩

theorem serializeSpecs_append (h : serializeSpecs ryu specs data = .ok buf) :
    ∃ bs, serializeSpecs ryu specs [] = .ok bs ∧ buf = data ++ bs := by
  rw [serializeSpecs, foldlM_append] at h
  rw [serializeSpecs, foldlM_append]
  cases hpieces : specs.mapM (NXFlowSpec.serialize ryu) with
  | error e =>
    rw [hpieces] at h
    cases h
  | ok pieces =>
    rw [hpieces] at h
    obtain rfl := Except.ok.inj h
    exact ⟨pieces.flatten, rfl, rfl⟩

theorem length_serializeSpecs (h : serializeSpecs ryu specs [] = .ok bs) :
    bs.length = (specs.map NXFlowSpec.size).sum := by
  induction specs generalizing bs with
  | nil =>
    obtain rfl := Except.ok.inj h
    rfl
  | cons spec specs ih =>
    obtain ⟨cs, hcs, h⟩ := serializeSpecs_cons h
    obtain ⟨ds, hds, rfl⟩ := serializeSpecs_append h
    rw [List.nil_append, List.length_append, length_serialize hcs, ih hds, List.map_cons,
      List.sum_cons]

theorem parseSpecs_eq_ok (h : parseSpecs ryu fuel buf = .ok specs) : buf = [] ∧ specs = [] ∨
    ∃ fuel' spec specs' rest, fuel = fuel' + 1 ∧ parse ryu buf = .ok (spec, rest) ∧
      parseSpecs ryu fuel' rest = .ok specs' ∧ specs = spec.toList ++ specs' := by
  cases buf with
  | nil =>
    rw [parseSpecs_nil] at h
    exact .inl ⟨rfl, (Except.ok.inj h).symm⟩
  | cons b buf =>
    cases fuel with
    | zero => cases h
    | succ fuel =>
      cases hparse : parse ryu (b :: buf) with
      | error e =>
        rw [parseSpecs, hparse] at h
        · cases h
        · exact List.cons_ne_nil b buf
      | ok p =>
        obtain ⟨spec, rest⟩ := p
        rw [parseSpecs_of_parse hparse] at h
        obtain ⟨specs', hspecs, h⟩ := bind_eq_ok h
        exact .inr ⟨fuel, spec, specs', rest, rfl, rfl, hspecs, (Except.ok.inj h).symm⟩

theorem parseSpecs_size (h : parseSpecs ryu fuel buf = .ok specs) :
    (specs.map NXFlowSpec.size).sum ≤ buf.length := by
  induction fuel generalizing buf specs with
  | zero =>
    obtain ⟨rfl, rfl⟩ | ⟨fuel, -, -, -, hfuel, -⟩ := parseSpecs_eq_ok h
    · exact le_rfl
    · cases hfuel
  | succ fuel ih =>
    obtain ⟨rfl, rfl⟩ | ⟨n, spec, specs, rest, hn, hparse, hspecs, rfl⟩ := parseSpecs_eq_ok h
    · exact le_rfl
    · obtain rfl := Nat.succ.inj hn
      have hle := ih hspecs
      rw [parse_size hparse]
      cases spec with
      | none => exact hle.trans (Nat.le_add_left _ _)
      | some spec =>
        rw [Option.toList_some, List.singleton_append, List.map_cons, List.sum_cons, taken]
        exact Nat.add_le_add_left hle _

theorem parseSpecs_serializeSpecs {k : ℕ} (h : serializeSpecs ryu specs [] = .ok bs)
    (hspecs : ∀ spec ∈ specs, spec.Known ryu ∧ spec.Kept) (hfuel : bs.length + k ≤ fuel) :
    parseSpecs ryu fuel (bs ++ List.replicate (2 * k) 0) = .ok specs := by
  induction specs generalizing bs fuel with
  | nil =>
    obtain rfl := Except.ok.inj h
    exact parseSpecs_zeros (by simpa using hfuel)
  | cons spec specs ih =>
    obtain ⟨hspec, hspecs⟩ := List.forall_mem_cons.mp hspecs
    obtain ⟨cs, hcs, h⟩ := serializeSpecs_cons h
    obtain ⟨ds, hds, rfl⟩ := serializeSpecs_append h
    have hpos := size_pos spec
    rw [List.nil_append, List.length_append, length_serialize hcs] at hfuel
    obtain ⟨fuel, rfl⟩ := Nat.exists_eq_add_of_le' (show 1 ≤ fuel by omega)
    rw [List.nil_append, List.append_assoc,
      parseSpecs_of_parse (parse_append hspec.1 hspec.2 hcs _), ih hds hspecs (by omega)]
    rfl

theorem length_serializeSpecs_even (h : serializeSpecs ryu specs [] = .ok bs) :
    bs.length % 2 = 0 := by
  rw [length_serializeSpecs h]
  clear h
  induction specs with
  | nil => rfl
  | cons spec specs ih =>
    have heven := size_even spec
    rw [List.map_cons, List.sum_cons]
    omega

theorem kept_of_parseSpecs (hknown : ∀ spec ∈ specs, spec.Known ryu)
    (h : serializeSpecs ryu specs [] = .ok bs) (hparse : parseSpecs ryu fuel bs = .ok specs) :
    ∀ spec ∈ specs, spec.Kept := by
  induction specs generalizing bs fuel with
  | nil => exact nofun
  | cons spec specs ih =>
    obtain ⟨hspec, hknown⟩ := List.forall_mem_cons.mp hknown
    have hsum := length_serializeSpecs h
    obtain ⟨cs, hcs, h⟩ := serializeSpecs_cons h
    obtain ⟨ds, hds, rfl⟩ := serializeSpecs_append h
    rw [List.nil_append] at hparse hsum
    obtain ⟨-, hnil⟩ | ⟨fuel, spec', specs', rest, -, hone, hrest, hspecs⟩ := parseSpecs_eq_ok hparse
    · cases hnil
    · cases spec' with
      | none =>
        -- the bytes behind padding are too few
        obtain rfl : spec :: specs = specs' := hspecs
        have hle := parseSpecs_size hrest
        have hsize := parse_size hone
        rw [hsum, taken] at hsize
        omega
      | some spec' =>
        obtain ⟨rfl, rfl⟩ := List.cons.inj hspecs
        have hkept := kept_of_parse hcs hone
        rw [parse_append hspec hkept hcs] at hone
        obtain ⟨-, rfl⟩ := Prod.mk.inj (Except.ok.inj hone)
        exact List.forall_mem_cons.mpr ⟨hkept, ih hknown hds hrest⟩

/-- The specifications come back from their bytes if and only if every one of them does. -/
theorem parseSpecs_serializeSpecs_iff (hknown : ∀ spec ∈ specs, spec.Known ryu)
    (h : serializeSpecs ryu specs [] = .ok bs) (hfuel : bs.length ≤ fuel) :
    parseSpecs ryu fuel bs = .ok specs ↔ ∀ spec ∈ specs, spec.Kept := by
  refine ⟨kept_of_parseSpecs hknown h, fun hkept ↦ ?_⟩
  have hread := parseSpecs_serializeSpecs (k := 0) h
    (fun spec hspec ↦ ⟨hknown spec hspec, hkept spec hspec⟩) hfuel
  rwa [Nat.mul_zero, List.replicate_zero, List.append_nil] at hread

end Loop

section Demo

def demoSpecs : List NXFlowSpec :=
  [⟨.subfield ⟨"reg0", 0⟩, .toMatch ⟨"eth_dst_nxm", 0⟩, 48⟩,
   ⟨.subfield ⟨"eth_src_nxm", 0⟩, .load ⟨"eth_dst_nxm", 0⟩, 48⟩, ⟨.immediate 7, .output, 16⟩]

theorem subfield_known {t : OxmType} (ht : t ∈ oxmTypes)
    (hid : t.cls.experimenterId = none) (ofs : ℕ) :
    Subfield.Known niciraRyu ⟨t.name, ofs⟩ :=
  ⟨_, short_of_mem generated_niciraRyu ht hid⟩

theorem demoSpecs_known : ∀ spec ∈ demoSpecs, spec.Known niciraRyu := by
  have hreg := subfield_known (t := ⟨"reg0", .niciraExtended1, 0, 4⟩) (by decide +kernel) rfl 0
  have hdst := subfield_known (t := ⟨"eth_dst_nxm", .niciraExtended0, 1, 6⟩) (by decide +kernel) rfl 0
  have hsrc := subfield_known (t := ⟨"eth_src_nxm", .niciraExtended0, 2, 6⟩) (by decide +kernel) rfl 0
  simp only [demoSpecs, List.forall_mem_cons]
  refine ⟨⟨?_, ?_⟩, ⟨?_, ?_⟩, ⟨?_, ?_⟩, nofun⟩
  · rintro s ⟨⟩
    exact hreg
  · rintro s (⟨⟨⟩⟩ | ⟨⟨⟩⟩)
    exact hdst
  · rintro s ⟨⟩
    exact hsrc
  · rintro s (⟨⟨⟩⟩ | ⟨⟨⟩⟩)
    exact hdst
  · exact nofun
  · rintro s (⟨⟨⟩⟩ | ⟨⟨⟩⟩)

theorem demoSpecs_kept : ∀ spec ∈ demoSpecs, spec.Kept := by
  simp only [demoSpecs, List.forall_mem_cons]
  refine ⟨⟨by decide, nofun, by decide⟩, ⟨by decide, nofun, by decide⟩,
    ⟨by decide, ?_, by decide⟩, nofun⟩
  rintro value ⟨⟩
  decide

theorem parseSpecs_demo : ∃ bs, serializeSpecs niciraRyu demoSpecs [] = .ok bs ∧
    parseSpecs niciraRyu bs.length bs = .ok demoSpecs :=
  ⟨_, rfl, (parseSpecs_serializeSpecs_iff demoSpecs_known rfl le_rfl).mpr demoSpecs_kept⟩

end Demo

structure NXActionLearn where
  idleTimeout : ℕ
  hardTimeout : ℕ
  priority : ℕ
  cookie : ℕ
  flags : ℕ
  tableId : ℕ
  finIdleTimeout : ℕ
  finHardTimeout : ℕ
  specs : List NXFlowSpec

namespace NXActionLearn

def fmt : Fmt (ℕ × ℕ × ℕ × ℕ × ℕ × ℕ × ℕ × ℕ) :=
  H.seq (H.seq (H.seq (Q.seq (H.seq ((paddedBy 1 B).seq (H.seq H))))))

section Code

variable (ryu : Ryu)

def parser (fuel : ℕ) (buf : List UInt8) : Except Stop NXActionLearn := do
  let (idleTimeout, hardTimeout, priority, cookie, flags, tableId, finIdleTimeout,
    finHardTimeout) ← (fmt.unpackFrom buf).mapError .raised
  let specs ← parseSpecs ryu fuel (buf.drop fmt.size)
  return { idleTimeout, hardTimeout, priority, cookie, flags, tableId, finIdleTimeout,
           finHardTimeout, specs }

def serializeBody (a : NXActionLearn) : Except PyError (List UInt8) := do
  let packed ← fmt.pack (a.idleTimeout, a.hardTimeout, a.priority, a.cookie, a.flags, a.tableId,
    a.finIdleTimeout, a.finHardTimeout)
  serializeSpecs ryu a.specs (ryu.msgPackInto [] 0 packed)

end Code

section RoundTrip

variable {ryu : Ryu} {a : NXActionLearn} {bs buf : List UInt8} {fuel : ℕ}

theorem serializeBody_eq_ok (h : a.serializeBody ryu = .ok bs) : ∃ packed specs,
    fmt.pack (a.idleTimeout, a.hardTimeout, a.priority, a.cookie, a.flags, a.tableId,
      a.finIdleTimeout, a.finHardTimeout) = .ok packed ∧
    serializeSpecs ryu a.specs [] = .ok specs ∧ bs = packed ++ specs := by
  obtain ⟨packed, hpacked, h⟩ := bind_eq_ok h
  rw [ryu.msgPackInto_nil] at h
  obtain ⟨specs, hspecs, rfl⟩ := serializeSpecs_append h
  exact ⟨packed, specs, hpacked, hspecs, rfl⟩

theorem length_serializeBody (h : a.serializeBody ryu = .ok bs) : bs.length % 2 = 0 := by
  obtain ⟨packed, specs, hpacked, hspecs, rfl⟩ := serializeBody_eq_ok h
  have hlen : packed.length = 22 := fmt.length_pack hpacked
  have heven := length_serializeSpecs_even hspecs
  rw [List.length_append]
  omega

theorem parser_serializeBody {k : ℕ} (h : a.serializeBody ryu = .ok bs)
    (hspecs : ∀ spec ∈ a.specs, spec.Known ryu ∧ spec.Kept) (hfuel : bs.length + k ≤ fuel) :
    parser ryu fuel (bs ++ List.replicate (2 * k) 0) = .ok a := by
  obtain ⟨packed, specs, hpacked, hwritten, rfl⟩ := serializeBody_eq_ok h
  rw [List.length_append] at hfuel
  rw [parser, List.append_assoc, fmt.unpackFrom_append hpacked, fmt.drop_pack hpacked]
  change parseSpecs ryu fuel _ >>= _ = _
  rw [parseSpecs_serializeSpecs hwritten hspecs (by omega)]
  rfl

theorem kept_of_parsed (hknown : ∀ spec ∈ a.specs, spec.Known ryu)
    (h : a.serializeBody ryu = .ok bs) (hparse : parser ryu fuel bs = .ok a) :
    ∀ spec ∈ a.specs, spec.Kept := by
  obtain ⟨packed, specs, hpacked, hwritten, rfl⟩ := serializeBody_eq_ok h
  rw [parser, fmt.unpackFrom_append hpacked, fmt.drop_pack hpacked] at hparse
  obtain ⟨numbers, hnumbers, hparse⟩ := bind_eq_ok hparse
  obtain rfl := Except.ok.inj hnumbers
  obtain ⟨read, hread, hparse⟩ := bind_eq_ok hparse
  obtain rfl : read = a.specs := congrArg NXActionLearn.specs (Except.ok.inj hparse)
  exact kept_of_parseSpecs hknown hwritten hread

theorem parser_ends (hfuel : buf.length ≤ fuel) : parser ryu fuel buf ≠ .error .outOfFuel := by
  rw [parser]
  cases hunpack : fmt.unpackFrom buf with
  | error e => exact nofun
  | ok p =>
    have hdrop : (buf.drop fmt.size).length ≤ fuel := by
      rw [List.length_drop]
      omega
    have hend := parseSpecs_ends ryu hdrop
    intro h
    change parseSpecs ryu fuel _ >>= _ = _ at h
    cases hspecs : parseSpecs ryu fuel (buf.drop fmt.size) with
    | error e =>
      rw [hspecs] at h hend
      cases h
      exact hend rfl
    | ok specs =>
      rw [hspecs] at h
      cases h

end RoundTrip

end NXActionLearn

end NshSfc.FlowSpecs
