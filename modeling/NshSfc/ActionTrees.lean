import NshSfc.NxmFields
import NshSfc.NxObjects

namespace NshSfc.ActionTrees

open Library Python Ofproto NxActions NxObjects NxmFields

structure CtFields where
  flags : ℕ
  zoneSrc : ZoneSrc
  zoneOfsNbits : ℕ
  recircTable : ℕ
  alg : ℕ
deriving DecidableEq

/-- An action object. `Other` is the type of those that are not Nicira's. -/
inductive OFPAction (Other : Type)
  | nx (b : Body)
  | ct (a : CtFields) (actions : List (OFPAction Other))
  | other (o : Other)

/-- What the actions use of `OFPAction`: its parser, which returns the action with its attribute
`len`, and the `serialize` of other actions. -/
structure OtherActions (Other : Type) where
  actionParser : (List UInt8 → Except Stop (OFPAction Other)) → List UInt8 →
    Except Stop (OFPAction Other × ℕ)
  serialize : Other → List UInt8 → ℕ → Except PyError (List UInt8)
  actionParser_nx : ∀ parse len data, len < 256 ^ 2 →
    actionParser parse (experimenterHeader len ++ data) =
      (parse (data.take (len - 8))).map fun a ↦ (a, len)

section Code

variable {Other : Type} (ryu : Ryu) (others : OtherActions Other)

def serializeFrame (subtype : ℕ) (data buf : List UInt8) (offset : ℕ) :
    Except PyError (List UInt8) := do
  let payloadOffset := 8 + 2
  let len := (ryu.roundUp (payloadOffset + data.length) 8).toNat
  let header ← (H.seq (H.seq I)).pack (0xffff, len, 0x00002320)
  let buf := ryu.msgPackInto buf offset header
  let packed ← H.pack subtype
  let buf := ryu.msgPackInto buf (offset + 8) packed
  return buf ++ data

def ctFmt : Fmt (ℕ × { bs : List UInt8 // bs.length = 4 } × ℕ × ℕ × ℕ) :=
  H.seq ((bytes 4).seq (H.seq ((paddedBy 3 B).seq H)))

def zoneBytes : ZoneSrc → Except PyError (List UInt8)
  | .none | .number 0 | .field "" => .ok (List.replicate 4 0)
  | .number n => I.pack n
  | .field name => ryu.header name

def CtFields.pack (a : CtFields) : Except PyError (List UInt8) := do
  let zoneSrc ← zoneBytes ryu a.zoneSrc
  let packed ← ctFmt.pack (a.flags, clip 4 zoneSrc, a.zoneOfsNbits, a.recircTable, a.alg)
  return ryu.msgPackInto [] 0 packed

mutual

def serialize : OFPAction Other → List UInt8 → ℕ → Except PyError (List UInt8)
  | .nx b, buf, offset => do
    let data ← b.serializeBody ryu
    serializeFrame ryu b.subtype data buf offset
  | .ct a actions, buf, offset => do
    let data ← a.pack ryu
    let data ← serializeActions actions data
    serializeFrame ryu NxClass.ct.subtype data buf offset
  | .other o, buf, offset => others.serialize o buf offset

def serializeActions : List (OFPAction Other) → List UInt8 → Except PyError (List UInt8)
  | [], data => .ok data
  | a :: actions, data => do
    let data ← serialize a data data.length
    serializeActions actions data

end

def readZone (oxmData : List UInt8) : Except PyError ZoneSrc :=
  if oxmData = List.replicate 4 0 then .ok (.field "")
  else do
    let (zoneSrc, _) ← ryu.readHeader oxmData
    return .field zoneSrc

def ctParser (loop : List UInt8 → Except Stop (List (OFPAction Other))) (buf : List UInt8) :
    Except Stop (OFPAction Other) := do
  let (flags, oxmData, zoneOfsNbits, recircTable, alg) ← (ctFmt.unpackFrom buf).mapError .raised
  let rest := buf.drop ctFmt.size
  let zoneSrc ← (readZone ryu oxmData.1).mapError .raised
  let actions ← loop rest
  return .ct { flags, zoneSrc, zoneOfsNbits, recircTable, alg } actions

def parse (loop : List UInt8 → Except Stop (List (OFPAction Other))) (fuel : ℕ) (buf : List UInt8) :
    Except Stop (OFPAction Other) := do
  let subtype ← (H.unpackFrom buf).mapError .raised
  let rest := buf.drop H.size
  match subtypes.lookup subtype with
  | none => .ok (.nx (.unknown subtype (some rest)))
  | some c =>
    if hc : c = .ct then ctParser ryu loop rest
    else do
      let b ← parser ryu fuel c hc rest
      return .nx b

/-- The loop of `NXActionCT.parser` over the rest of the buffer. -/
def parseActions : ℕ → List UInt8 → Except Stop (List (OFPAction Other))
  | _, [] => .ok []
  | 0, _ => .error .outOfFuel
  | fuel + 1, rest => do
    let (action, len) ← others.actionParser (parse ryu (parseActions fuel) fuel) rest
    let actions ← parseActions fuel (rest.drop len)
    return action :: actions

end Code

section Demo

def outputFmt : Fmt (ℕ × ℕ × ℕ × ℕ) := H.seq (H.seq (I.seq (paddedBy 6 H)))

def demoParser (parse : List UInt8 → Except Stop (OFPAction (ℕ × ℕ))) (buf : List UInt8) :
    Except Stop (OFPAction (ℕ × ℕ) × ℕ) :=
  let len := fromBytes ((buf.drop 2).take 2)
  if buf.take 2 = toBytes 2 0xffff ∧ (buf.drop 4).take 4 = toBytes 4 0x00002320 then
    (parse ((buf.drop 8).take (len - 8))).map fun a ↦ (a, len)
  else if buf.take 2 = toBytes 2 0 then do
    let (_, len, port, maxLen) ← (outputFmt.unpackFrom buf).mapError .raised
    return (.other (port, maxLen), len)
  else .error (.raised .assertionError)

def demoOthers : OtherActions (ℕ × ℕ) where
  actionParser := demoParser
  serialize o buf offset := do
    let packed ← outputFmt.pack (0, 16, o.1, o.2)
    return niciraRyu.msgPackInto buf offset packed
  actionParser_nx parse len data hlen := by
    have hbytes : fromBytes (toBytes 2 len) = len := by
      rw [fromBytes_toBytes, Nat.mod_eq_of_lt hlen]
    have hparser : demoParser parse (experimenterHeader len ++ data) =
        (parse (data.take (fromBytes (toBytes 2 len) - 8))).map
          fun a ↦ (a, fromBytes (toBytes 2 len)) := by
      rw [demoParser, if_pos ⟨rfl, rfl⟩]
      rfl
    rw [hparser, hbytes]

end Demo

section Frame

variable {Other : Type} {ryu : Ryu} {others : OtherActions Other} {b : Body}
  {loop : List UInt8 → Except Stop (List (OFPAction Other))} {data buf out bs : List UInt8}
  {subtype fuel k : ℕ}

def announced (n : ℕ) : ℕ := (10 + n + 7) / 8 * 8

theorem experimenterHeader_pack {len : ℕ} (hlen : len < 256 ^ 2) :
    (H.seq (H.seq I)).pack (0xffff, len, 0x00002320) = .ok (experimenterHeader len) := by
  have htype : H.pack 0xffff = .ok (toBytes 2 0xffff) := rfl
  have hid : I.pack 0x00002320 = .ok (toBytes 4 0x00002320) := rfl
  have hrest := Format.seq_pack.mpr ⟨_, _, H_pack hlen, hid, rfl⟩
  rw [Format.seq_pack.mpr ⟨_, _, htype, hrest, rfl⟩, experimenterHeader, List.append_assoc]

theorem roundUp_announced (data : List UInt8) :
    (ryu.roundUp (8 + 2 + data.length) 8).toNat = announced data.length := by
  rw [ryu.roundUp_eq, announced]
  omega

theorem serializeFrame_of_lt (hlen : announced data.length < 256 ^ 2) (hsubtype : subtype < 256 ^ 2) :
    serializeFrame ryu subtype data buf buf.length =
      .ok (buf ++ (experimenterHeader (announced data.length) ++ (toBytes 2 subtype ++ data))) := by
  have hend : buf.length + 8 = (buf ++ experimenterHeader (announced data.length)).length := by
    rw [List.length_append]
    rfl
  rw [serializeFrame]
  dsimp only
  rw [roundUp_announced, experimenterHeader_pack hlen, ok_bind, H_pack hsubtype, ok_bind,
    ryu.msgPackInto_end, hend, ryu.msgPackInto_end, List.append_assoc, List.append_assoc]
  rfl

theorem serializeFrame_end (h : serializeFrame ryu subtype data buf buf.length = .ok out) :
    announced data.length < 256 ^ 2 ∧ subtype < 256 ^ 2 ∧
      out = buf ++ (experimenterHeader (announced data.length) ++ (toBytes 2 subtype ++ data)) := by
  obtain ⟨header, hheader, hpacked⟩ := bind_eq_ok h
  obtain ⟨packed, hpacked, -⟩ := bind_eq_ok hpacked
  rw [roundUp_announced] at hheader
  have hlen : announced data.length < 256 ^ 2 := by
    obtain ⟨as, cs, -, hcs, -⟩ := Format.seq_pack.mp hheader
    obtain ⟨ds, es, hds, -, -⟩ := Format.seq_pack.mp hcs
    exact Format.num_pack _ hds
  have hsubtype : subtype < 256 ^ 2 := Format.num_pack _ hpacked
  rw [serializeFrame_of_lt hlen hsubtype] at h
  exact ⟨hlen, hsubtype, (Except.ok.inj h).symm⟩

theorem parse_subtype (hsubtype : subtype < 256 ^ 2) (rest : List UInt8) :
    parse ryu loop fuel (toBytes 2 subtype ++ rest) =
      match subtypes.lookup subtype with
      | none => .ok (.nx (.unknown subtype (some rest)))
      | some c =>
        if hc : c = .ct then ctParser ryu loop rest
        else do
          let b ← parser ryu fuel c hc rest
          return .nx b := by
  have hpack := H_pack hsubtype
  rw [parse, H.unpackFrom_append hpack, H.drop_pack hpack]
  rfl

theorem actionParser_frame {len : ℕ} (P : List UInt8 → Except Stop (OFPAction Other))
    (hlen : len < 256 ^ 2) (hten : 10 ≤ len) (data : List UInt8) :
    others.actionParser P (experimenterHeader len ++ (toBytes 2 subtype ++ data)) =
      (P (toBytes 2 subtype ++ data.take (len - 10))).map fun a ↦ (a, len) := by
  have htwo : (toBytes 2 subtype).length = 2 := length_toBytes 2 subtype
  have htake : (toBytes 2 subtype ++ data).take (len - 8) =
      toBytes 2 subtype ++ data.take (len - 10) := by
    have hsplit : len - 8 = (toBytes 2 subtype).length + (len - 10) := by omega
    rw [hsplit, List.take_length_add_append]
  rw [others.actionParser_nx P len _ hlen, htake]

theorem actionParser_body (others : OtherActions Other)
    (P : List UInt8 → Except Stop (OFPAction Other)) (subtype : ℕ)
    (hlen : announced data.length < 256 ^ 2) (hk : 10 + data.length + k = announced data.length)
    (rest : List UInt8) :
    others.actionParser P (experimenterHeader (announced data.length) ++
      (toBytes 2 subtype ++ data) ++ (List.replicate k 0 ++ rest)) =
      (P (toBytes 2 subtype ++ (data ++ List.replicate k 0))).map
        fun a ↦ (a, announced data.length) := by
  have htake : (data ++ (List.replicate k 0 ++ rest)).take (announced data.length - 10) =
      data ++ List.replicate k 0 := by
    rw [← List.append_assoc]
    refine List.take_left' ?_
    rw [List.length_append, List.length_replicate]
    omega
  rw [List.append_assoc, List.append_assoc, actionParser_frame P hlen (by omega), htake]

theorem subtype_eq {c : NxClass} (hclass : b.nxClass = some c) : b.subtype = c.subtype := by
  cases b with
  | unknown subtype data => cases hclass
  | _ =>
    obtain rfl := Option.some.inj hclass
    rfl

theorem found_ne_ct {c : NxClass} (hclass : b.nxClass = some c) : found c ≠ .ct := by
  cases b with
  | unknown subtype data => cases hclass
  | nsh a =>
    obtain rfl := Option.some.inj hclass
    cases a <;> exact nofun
  | bare cl =>
    obtain rfl := Option.some.inj hclass
    cases cl <;> exact nofun
  | plain cl a =>
    obtain rfl := Option.some.inj hclass
    cases cl <;> exact nofun
  | named cl a field =>
    obtain rfl := Option.some.inj hclass
    cases cl <;> exact nofun
  | bundle cl a =>
    obtain rfl := Option.some.inj hclass
    cases cl <;> exact nofun
  | _ =>
    obtain rfl := Option.some.inj hclass
    exact nofun

theorem parse_class {c : NxClass} (hclass : b.nxClass = some c) (hsubtype : b.subtype < 256 ^ 2)
    (rest : List UInt8) : parse ryu loop fuel (toBytes 2 b.subtype ++ rest) =
      (parser ryu fuel (found c) (found_ne_ct hclass) rest).map OFPAction.nx := by
  rw [parse_subtype hsubtype, subtype_eq hclass, lookup_subtype]
  dsimp only
  rw [dif_neg (found_ne_ct hclass)]
  rfl

theorem parse_body (hsubtype : b.subtype < 256 ^ 2) (hknown : b.Known ryu) (hkept : b.Kept k)
    (hk : k < 8) (h : b.serializeBody ryu = .ok data) (hfuel : data.length + k ≤ fuel) :
    parse ryu loop fuel (toBytes 2 b.subtype ++ (data ++ List.replicate k 0)) =
      (.ok (.nx b) : Except Stop (OFPAction Other)) := by
  cases hclass : b.nxClass with
  | none =>
    cases b with
    | unknown subtype data' =>
      obtain ⟨rfl, hdata, hlookup⟩ := hkept
      obtain ⟨bytes, rfl⟩ := Option.ne_none_iff_exists'.mp hdata
      obtain rfl := Except.ok.inj h
      rw [parse_subtype hsubtype]
      dsimp only [Body.subtype]
      rw [hlookup, List.replicate_zero, List.append_nil]
      rfl
    | _ => cases hclass
  | some c =>
    have hb : b ≠ .nsh .encapNsh := by
      rintro rfl
      exact hkept rfl
    have hfound := found_eq hclass hb
    have hc : c ≠ .ct := hfound ▸ found_ne_ct hclass
    have hread := parser_serializeBody hclass hc hknown hkept hk h hfuel
    rw [parse_class hclass hsubtype]
    simp only [hfound]
    rw [hread]
    rfl

theorem map_nx_eq_ok {x : Except Stop Body}
    (h : x.map OFPAction.nx = (.ok (.nx b) : Except Stop (OFPAction Other))) : x = .ok b := by
  cases x with
  | error e => cases h
  | ok b' => exact congrArg Except.ok (OFPAction.nx.inj (Except.ok.inj h))

theorem kept_of_parse (hsubtype : b.subtype < 256 ^ 2) (hknown : b.Known ryu) (hk : k < 8)
    (hpad : k = 0 ∨ b.nxClass ≠ some .learn) (h : b.serializeBody ryu = .ok data)
    (hfuel : data.length ≤ fuel)
    (hparse : parse ryu loop fuel (toBytes 2 b.subtype ++ (data ++ List.replicate k 0)) =
      (.ok (.nx b) : Except Stop (OFPAction Other))) : b.Kept k := by
  cases hclass : b.nxClass with
  | none =>
    cases b with
    | unknown subtype data' =>
      obtain rfl := Except.ok.inj h
      rw [parse_subtype hsubtype, Body.subtype] at hparse
      cases hlookup : subtypes.lookup subtype with
      | none =>
        rw [hlookup] at hparse
        obtain ⟨-, hdata⟩ := Body.unknown.inj (OFPAction.nx.inj (Except.ok.inj hparse))
        have hlen := congrArg List.length (congrArg (Option.getD · []) hdata)
        simp only [Option.getD_some, List.length_append, List.length_replicate] at hlen
        refine ⟨by omega, ?_, hlookup⟩
        rw [← hdata]
        exact Option.some_ne_none _
      | some c =>
        rw [hlookup] at hparse
        dsimp only at hparse
        split_ifs at hparse with hc
        · obtain ⟨fields, -, hparse⟩ := bind_eq_ok hparse
          obtain ⟨zone, -, hparse⟩ := bind_eq_ok hparse
          obtain ⟨actions, -, hparse⟩ := bind_eq_ok hparse
          cases hparse
        · cases nxClass_of_parsed (map_nx_eq_ok hparse)
    | _ => cases hclass
  | some c =>
    rw [parse_class hclass hsubtype] at hparse
    have hread := map_nx_eq_ok hparse
    have hsame : found c = c := by
      have hfound := nxClass_of_parsed hread
      rw [hclass] at hfound
      exact (Option.some.inj hfound).symm
    have hb : b ≠ .nsh .encapNsh := by
      rintro rfl
      obtain rfl := Option.some.inj hclass
      cases hsame
    have hne := found_ne_ct hclass
    simp only [hsame] at hread hne
    refine kept_of_parsed hclass hne hb hknown hk (hpad.imp_right fun hlearn hc ↦ ?_) h hfuel hread
    exact hlearn (hclass.trans (congrArg some hc))

end Frame

section Single

variable {Other : Type} {ryu : Ryu} {others : OtherActions Other} {b : Body}
  {loop : List UInt8 → Except Stop (List (OFPAction Other))} {buf out : List UInt8} {fuel : ℕ}

theorem serialize_nx (h : serialize ryu others (.nx b) buf buf.length = .ok out) : ∃ data,
    b.serializeBody ryu = .ok data ∧ announced data.length < 256 ^ 2 ∧ b.subtype < 256 ^ 2 ∧
      out = buf ++ (experimenterHeader (announced data.length) ++ (toBytes 2 b.subtype ++ data)) := by
  rw [serialize] at h
  obtain ⟨data, hdata, h⟩ := bind_eq_ok h
  obtain ⟨hlen, hsubtype, rfl⟩ := serializeFrame_end h
  exact ⟨data, hdata, hlen, hsubtype, rfl⟩

theorem length_frame (subtype : ℕ) (data : List UInt8) :
    (experimenterHeader (announced data.length) ++ (toBytes 2 subtype ++ data)).length =
      10 + data.length := by
  rw [List.length_append, List.length_append, length_toBytes, ← Nat.add_assoc]
  rfl

theorem announced_of_aligned {n : ℕ} (h : n % 8 = 6) : announced n = 10 + n := by
  rw [announced]
  omega

/-- An action that is as long as announced comes back from where it was written, whatever follows it,
if and only if it is kept. -/
theorem actionParser_serialize_iff
    (loop : List UInt8 → Except Stop (List (OFPAction Other))) (hknown : b.Known ryu) (haligned : b.Aligned ryu)
    (h : serialize ryu others (.nx b) buf buf.length = .ok out) (hfuel : out.length ≤ fuel) :
    ∃ bs, out = buf ++ bs ∧ ∀ rest,
      others.actionParser (parse ryu loop fuel) (bs ++ rest) = .ok (.nx b, bs.length) ↔ b.Kept 0 := by
  obtain ⟨data, hdata, hlen, hsubtype, rfl⟩ := serialize_nx h
  have hwritten := announced_of_aligned ((aligned_iff hknown hdata).mpr haligned)
  refine ⟨_, rfl, fun rest ↦ ?_⟩
  have hframe := length_frame b.subtype data
  have hlong : data.length ≤ fuel := by
    rw [List.length_append, hframe] at hfuel
    omega
  have hread := actionParser_body others (parse ryu loop fuel) b.subtype (k := 0) hlen
    hwritten.symm rest
  rw [List.replicate_zero, List.nil_append] at hread
  rw [hread, hframe, hwritten]
  constructor
  · intro hparse
    cases hbody : parse ryu loop fuel (toBytes 2 b.subtype ++ (data ++ List.replicate 0 0)) with
    | error e =>
      rw [List.replicate_zero, List.append_nil] at hbody
      rw [List.append_nil, hbody] at hparse
      cases hparse
    | ok a =>
      have hsame := hbody
      rw [List.replicate_zero, List.append_nil] at hsame
      rw [List.append_nil, hsame] at hparse
      obtain ⟨rfl, -⟩ := Prod.mk.inj (Except.ok.inj hparse)
      exact kept_of_parse hsubtype hknown (by decide) (.inl rfl) hdata hlong hbody
  · intro hkept
    have hbody : parse ryu loop fuel (toBytes 2 b.subtype ++ (data ++ List.replicate 0 0)) =
        .ok (.nx b) := parse_body hsubtype hknown hkept (by decide) hdata hlong
    rw [List.replicate_zero] at hbody
    rw [hbody]
    rfl

theorem controller2_reads : ∃ bs, serialize niciraRyu demoOthers
    (.nx (.controller2 { userdata := some [1, 2, 3], pause := some true })) [] 0 = .ok bs ∧
    demoOthers.actionParser (parse niciraRyu (fun _ ↦ .ok []) 32) bs =
      .ok (.nx (.controller2 { userdata := some [1, 2, 3], pause := some true }), bs.length) := by
  have hout : serialize niciraRyu demoOthers
      (.nx (.controller2 { userdata := some [1, 2, 3], pause := some true })) [] 0 =
        .ok [255, 255, 0, 32, 0, 0, 35, 32, 0, 37, 0, 0, 0, 0, 0, 0, 0, 3, 0, 7, 1, 2, 3, 0, 0, 4, 0, 4,
          0, 0, 0, 0] := by
    rfl
  have haligned : Body.Aligned niciraRyu
      (.controller2 { userdata := some [1, 2, 3], pause := some true }) :=
    fun h ↦ absurd h (by decide)
  obtain ⟨bs, hbs, hread⟩ := actionParser_serialize_iff (fun _ ↦ .ok [])
    (b := .controller2 { userdata := some [1, 2, 3], pause := some true }) trivial haligned hout
    (show _ ≤ 32 by decide)
  refine ⟨bs, hout.trans (congrArg Except.ok hbs), ?_⟩
  have hone := (hread []).mpr ⟨rfl, by decide⟩
  rwa [List.append_nil] at hone

/-- In a list of instructions the actions are filled up with zeros as far as they announce. An action
that is kept with the zeros comes back from there. -/
theorem actionParser_serialize_padded
    (loop : List UInt8 → Except Stop (List (OFPAction Other))) (hknown : b.Known ryu)
    (h : serialize ryu others (.nx b) buf buf.length = .ok out) (hfuel : out.length + 8 ≤ fuel) :
    ∃ bs k, out = buf ++ bs ∧ k < 8 ∧ (bs.length + k) % 8 = 0 ∧ (b.Kept k → ∀ rest,
      others.actionParser (parse ryu loop fuel) (bs ++ (List.replicate k 0 ++ rest)) =
        .ok (.nx b, bs.length + k)) := by
  obtain ⟨data, hdata, hlen, hsubtype, rfl⟩ := serialize_nx h
  have hframe := length_frame b.subtype data
  have hk : 10 + data.length + (announced data.length - (10 + data.length)) =
      announced data.length := by
    rw [announced]
    omega
  have hlt : announced data.length - (10 + data.length) < 8 := by
    rw [announced]
    omega
  refine ⟨_, announced data.length - (10 + data.length), rfl, hlt, ?_, fun hkept rest ↦ ?_⟩
  · rw [hframe, hk, announced]
    omega
  · have hlong : data.length + (announced data.length - (10 + data.length)) ≤ fuel := by
      rw [List.length_append, hframe] at hfuel
      omega
    rw [actionParser_body _ _ _ hlen hk, parse_body hsubtype hknown hkept hlt hdata hlong, hframe, hk]
    rfl

theorem decap_reads : ∃ bs k, serialize niciraRyu demoOthers (.nx (.nsh .decap)) [] 0 = .ok bs ∧
    demoOthers.actionParser (parse niciraRyu (fun _ ↦ .ok []) 20) (bs ++ List.replicate k 0) =
      .ok (.nx (.nsh .decap), 16) := by
  have hout : serialize niciraRyu demoOthers (.nx (.nsh .decap)) [] 0 =
      .ok [255, 255, 0, 16, 0, 0, 35, 32, 0, 47, 0, 0] := by
    rfl
  obtain ⟨bs, k, hbs, hk, height, hread⟩ := actionParser_serialize_padded (fun _ ↦ .ok [])
    (b := .nsh .decap) trivial hout (show _ + 8 ≤ 20 by decide)
  have htwelve : bs.length = 12 := (congrArg List.length hbs).symm
  have hsum : bs.length + k = 16 := by omega
  have hone := hread nofun []
  rw [List.append_nil, hsum] at hone
  exact ⟨bs, k, hout.trans (congrArg Except.ok hbs), hone⟩

/-- An action is as long as the length in its header says if and only if it is aligned. -/
theorem length_eq_announced_iff (hknown : b.Known ryu)
    (h : serialize ryu others (.nx b) buf buf.length = .ok out) : ∃ bs, out = buf ++ bs ∧
      (bs.length = fromBytes ((bs.drop 2).take 2) ↔ b.Aligned ryu) := by
  obtain ⟨data, hdata, hlen, hsubtype, rfl⟩ := serialize_nx h
  refine ⟨_, rfl, ?_⟩
  have hfield : ((experimenterHeader (announced data.length) ++
      (toBytes 2 b.subtype ++ data)).drop 2).take 2 = toBytes 2 (announced data.length) := rfl
  rw [← aligned_iff hknown hdata, length_frame, hfield, fromBytes_toBytes, Nat.mod_eq_of_lt hlen,
    announced]
  omega

theorem decap_short : ∃ bs, serialize niciraRyu demoOthers (.nx (.nsh .decap)) [] 0 = .ok bs ∧
    bs.length ≠ fromBytes ((bs.drop 2).take 2) := by
  have hout : serialize niciraRyu demoOthers (.nx (.nsh .decap)) [] 0 =
      .ok [255, 255, 0, 16, 0, 0, 35, 32, 0, 47, 0, 0] := by
    rfl
  obtain ⟨bs, hbs, hlen⟩ := length_eq_announced_iff (b := .nsh .decap) trivial hout
  exact ⟨bs, hout.trans (congrArg Except.ok hbs), fun h ↦ hlen.mp h rfl⟩

end Single

section Trees

variable {Other : Type} {ryu : Ryu} {others : OtherActions Other} {t : OFPAction Other}
  {actions : List (OFPAction Other)} {data buf out : List UInt8} {fuel : ℕ}

/-- The zone comes back: it is the empty text, or a field with a header that is not zero. -/
def ZoneKept (ryu : Ryu) (zoneSrc : ZoneSrc) : Prop :=
  zoneSrc = .field "" ∨ ∃ name h, zoneSrc = .field name ∧ name ≠ "" ∧ ryu.Short name h ∧
    h ≠ List.replicate 4 0

def OtherKept (others : OtherActions Other) (o : Other) : Prop :=
  ∀ buf out, others.serialize o buf buf.length = .ok out → ∃ bs, bs ≠ [] ∧ bs.length % 8 = 0 ∧
    out = buf ++ bs ∧ ∀ P rest, others.actionParser P (bs ++ rest) = .ok (.other o, bs.length)

/-- Everything in the action is kept and as long as announced. -/
inductive Kept (ryu : Ryu) (others : OtherActions Other) : OFPAction Other → Prop
  | nx {b : Body} (hknown : b.Known ryu) (haligned : b.Aligned ryu) (hkept : b.Kept 0) :
    Kept ryu others (.nx b)
  | ct {a : CtFields} {actions : List (OFPAction Other)} (hzone : ZoneKept ryu a.zoneSrc)
    (hactions : ∀ t ∈ actions, Kept ryu others t) : Kept ryu others (.ct a actions)
  | other {o : Other} (ho : OtherKept others o) : Kept ryu others (.other o)

def Reads (ryu : Ryu) (others : OtherActions Other) (t : OFPAction Other) : Prop :=
  ∀ buf out, serialize ryu others t buf buf.length = .ok out → ∃ bs, bs ≠ [] ∧ bs.length % 8 = 0 ∧
    out = buf ++ bs ∧ ∀ fuel rest, bs.length ≤ fuel + 1 →
      others.actionParser (parse ryu (parseActions ryu others fuel) fuel) (bs ++ rest) =
        .ok (t, bs.length)

theorem parseActions_nil (fuel : ℕ) : parseActions ryu others fuel [] = .ok [] := by
  cases fuel <;> rfl

theorem parseActions_eq_cons {rest : List UInt8} :
    parseActions ryu others fuel rest = .ok (t :: actions) ↔ ∃ fuel' len, fuel = fuel' + 1 ∧
      rest ≠ [] ∧ others.actionParser (parse ryu (parseActions ryu others fuel') fuel') rest =
        .ok (t, len) ∧ parseActions ryu others fuel' (rest.drop len) = .ok actions := by
  cases rest with
  | nil => simp [parseActions_nil]
  | cons b rest =>
    have hne : b :: rest ≠ [] := List.cons_ne_nil b rest
    cases fuel with
    | zero => simp [parseActions]
    | succ fuel =>
      have hstep : parseActions ryu others (fuel + 1) (b :: rest) = do
          let (action, len) ← others.actionParser
            (parse ryu (parseActions ryu others fuel) fuel) (b :: rest)
          let actions ← parseActions ryu others fuel ((b :: rest).drop len)
          return action :: actions := parseActions.eq_3 _ _ _ _ fun h ↦ hne h
      rw [hstep]
      constructor
      · intro h
        obtain ⟨⟨a, len⟩, hparser, h⟩ := bind_eq_ok h
        obtain ⟨as, hloop, h⟩ := bind_eq_ok h
        obtain ⟨rfl, rfl⟩ := List.cons.inj (Except.ok.inj h)
        exact ⟨fuel, len, rfl, hne, hparser, hloop⟩
      · rintro ⟨fuel', len, hfuel, -, hparser, hloop⟩
        obtain rfl := Nat.succ.inj hfuel
        rw [hparser, ok_bind]
        dsimp only
        rw [hloop]
        rfl

theorem parseActions_serializeActions (hactions : ∀ t ∈ actions, Reads ryu others t)
    (h : serializeActions ryu others actions data = .ok out) : ∃ bs, out = data ++ bs ∧
      bs.length % 8 = 0 ∧ ∀ fuel, bs.length ≤ fuel →
        parseActions ryu others fuel bs = .ok actions := by
  induction actions generalizing data with
  | nil =>
    rw [serializeActions] at h
    obtain rfl := Except.ok.inj h
    exact ⟨[], (List.append_nil _).symm, rfl, fun fuel _ ↦ parseActions_nil fuel⟩
  | cons t actions ih =>
    obtain ⟨ht, hactions⟩ := List.forall_mem_cons.mp hactions
    rw [serializeActions] at h
    obtain ⟨mid, hmid, h⟩ := bind_eq_ok h
    obtain ⟨bs, hne, height, rfl, hread⟩ := ht data mid hmid
    obtain ⟨cs, rfl, heights, hloop⟩ := ih hactions h
    have hpos := List.length_pos_iff.mpr hne
    refine ⟨bs ++ cs, by rw [List.append_assoc], ?_, fun fuel hfuel ↦ ?_⟩
    · rw [List.length_append]
      omega
    · rw [List.length_append] at hfuel
      obtain ⟨fuel, rfl⟩ := Nat.exists_eq_add_of_le' (show 1 ≤ fuel by omega)
      refine parseActions_eq_cons.mpr ⟨fuel, _, rfl, by simp [hne], hread fuel cs (by omega), ?_⟩
      rw [List.drop_left]
      exact hloop fuel (by omega)

theorem reads_zone {a : CtFields} {zoneSrc : List UInt8} (hzone : ZoneKept ryu a.zoneSrc)
    (h : zoneBytes ryu a.zoneSrc = .ok zoneSrc) :
    readZone ryu (clip 4 zoneSrc).1 = .ok a.zoneSrc := by
  obtain hempty | ⟨name, header, hname, hne, hfield, hzero⟩ := hzone
  · rw [hempty] at h ⊢
    obtain rfl := Except.ok.inj h
    rfl
  · rw [hname] at h ⊢
    have hbytes : zoneBytes ryu (.field name) = ryu.header name := by
      rw [zoneBytes]
      exact fun h ↦ hne h
    rw [hbytes, hfield.header] at h
    obtain rfl := Except.ok.inj h
    have hread := hfield.readHeader []
    rw [List.append_nil] at hread
    rw [clip_of_length hfield.length, readZone, if_neg hzero, hread]
    rfl

theorem pack_eq_ok {a : CtFields} (h : a.pack ryu = .ok data) : ∃ zoneSrc,
    zoneBytes ryu a.zoneSrc = .ok zoneSrc ∧
      ctFmt.pack (a.flags, clip 4 zoneSrc, a.zoneOfsNbits, a.recircTable, a.alg) = .ok data := by
  obtain ⟨zoneSrc, hzone, h⟩ := bind_eq_ok h
  obtain ⟨packed, hpacked, h⟩ := bind_eq_ok h
  obtain rfl := Except.ok.inj h
  exact ⟨zoneSrc, hzone, by rw [ryu.msgPackInto_nil, hpacked]⟩

theorem ctParser_append {a : CtFields} {loop : List UInt8 → Except Stop (List (OFPAction Other))}
    {zoneSrc : List UInt8} {zone : ZoneSrc} (hbytes : zoneBytes ryu a.zoneSrc = .ok zoneSrc)
    (hzone : readZone ryu (clip 4 zoneSrc).1 = .ok zone) (h : a.pack ryu = .ok data)
    (rest : List UInt8) : ctParser ryu loop (data ++ rest) =
      (loop rest).map fun actions ↦ .ct { a with zoneSrc := zone } actions := by
  obtain ⟨zoneSrc', hbytes', hpacked⟩ := pack_eq_ok h
  obtain rfl := Except.ok.inj (hbytes'.symm.trans hbytes)
  rw [ctParser, ctFmt.unpackFrom_append hpacked, ctFmt.drop_pack hpacked]
  change (readZone ryu (clip 4 zoneSrc').1).mapError Stop.raised >>= _ = _
  rw [hzone]
  cases hloop : loop rest with
  | error e => rfl
  | ok actions => rfl

theorem length_pack {a : CtFields} (h : a.pack ryu = .ok data) : data.length = 14 := by
  obtain ⟨zoneSrc, -, hpacked⟩ := pack_eq_ok h
  exact ctFmt.length_pack hpacked

theorem reads_frame {subtype : ℕ} {out : List UInt8}
    (h : serializeFrame ryu subtype data buf buf.length = .ok out) (haligned : data.length % 8 = 6)
    (hread : ∀ fuel, data.length + 9 ≤ fuel → subtype < 256 ^ 2 →
      parse ryu (parseActions ryu others fuel) fuel (toBytes 2 subtype ++ data) = .ok t) :
    ∃ bs, bs ≠ [] ∧ bs.length % 8 = 0 ∧ out = buf ++ bs ∧ ∀ fuel rest, bs.length ≤ fuel + 1 →
      others.actionParser (parse ryu (parseActions ryu others fuel) fuel) (bs ++ rest) =
        .ok (t, bs.length) := by
  obtain ⟨hlen, hsubtype, rfl⟩ := serializeFrame_end h
  have hwritten := announced_of_aligned haligned
  have hframe := length_frame subtype data
  refine ⟨_, ?_, ?_, rfl, fun fuel rest hfuel ↦ ?_⟩
  · refine List.ne_nil_of_length_pos ?_
    omega
  · omega
  · have hbody := actionParser_body others (parse ryu (parseActions ryu others fuel) fuel) subtype
      (k := 0) hlen hwritten.symm rest
    rw [List.replicate_zero, List.nil_append, List.append_nil] at hbody
    rw [hbody, hread fuel (by omega) hsubtype, hframe, hwritten]
    rfl

/-- By induction on the tree: the actions of an `NXActionCT` come back when the loop runs over them,
since each of them is followed by exactly what it announced. -/
theorem reads_of_kept (h : Kept ryu others t) : Reads ryu others t := by
  induction h with
  | @nx b hknown haligned hkept =>
    intro buf out hout
    rw [serialize] at hout
    obtain ⟨data, hdata, hframe⟩ := bind_eq_ok hout
    refine reads_frame hframe ((aligned_iff hknown hdata).mpr haligned) fun fuel hfuel hsubtype ↦ ?_
    have hbody : parse ryu (parseActions ryu others fuel) fuel
        (toBytes 2 b.subtype ++ (data ++ List.replicate 0 0)) = .ok (.nx b) :=
      parse_body hsubtype hknown hkept (by decide) hdata (by omega)
    rwa [List.replicate_zero, List.append_nil] at hbody
  | @ct a actions hzone hactions ih =>
    intro buf out hout
    rw [serialize] at hout
    obtain ⟨packed, hpacked, hout⟩ := bind_eq_ok hout
    obtain ⟨data, hdata, hframe⟩ := bind_eq_ok hout
    obtain ⟨bs, rfl, height, hloop⟩ := parseActions_serializeActions ih hdata
    have hlen := length_pack hpacked
    obtain ⟨zoneSrc, hbytes, -⟩ := pack_eq_ok hpacked
    have haligned : (packed ++ bs).length % 8 = 6 := by
      rw [List.length_append]
      omega
    refine reads_frame hframe haligned fun fuel hfuel hsubtype ↦ ?_
    rw [List.length_append] at hfuel
    have hlookup := lookup_subtype .ct
    rw [parse_subtype hsubtype, hlookup]
    change ctParser ryu _ (packed ++ bs) = _
    rw [ctParser_append hbytes (reads_zone hzone hbytes) hpacked, hloop fuel (by omega)]
    rfl
  | other ho =>
    intro buf out hout
    rw [serialize] at hout
    obtain ⟨bs, hne, height, rfl, hread⟩ := ho buf out hout
    exact ⟨bs, hne, height, rfl, fun fuel rest _ ↦ hread _ rest⟩

end Trees

section Demo

theorem otherKept_output (o : ℕ × ℕ) : OtherKept demoOthers o := by
  intro buf out h
  obtain ⟨packed, hpacked, h⟩ := bind_eq_ok h
  have hlen : packed.length = 16 := outputFmt.length_pack hpacked
  have hout := Except.ok.inj h
  rw [Ryu.msgPackInto_end] at hout
  refine ⟨packed, ?_, by omega, hout.symm, fun P rest ↦ ?_⟩
  · exact List.ne_nil_of_length_pos (by omega)
  · have hread := outputFmt.unpackFrom_append hpacked rest
    obtain ⟨type, tail, htype, -, rfl⟩ := Format.seq_pack.mp hpacked
    obtain rfl := Except.ok.inj htype
    have hzero : (toBytes 2 0 ++ tail ++ rest).take 2 = toBytes 2 0 := rfl
    have hother : ¬ ((toBytes 2 0 ++ tail ++ rest).take 2 = toBytes 2 0xffff ∧
        ((toBytes 2 0 ++ tail ++ rest).drop 4).take 4 = toBytes 4 0x00002320) := by
      rw [hzero]
      exact fun h ↦ absurd h.1 (by decide)
    have hparser : demoOthers.actionParser P (toBytes 2 0 ++ tail ++ rest) =
        demoParser P (toBytes 2 0 ++ tail ++ rest) := rfl
    rw [hparser, demoParser, if_neg hother, if_pos hzero, hread, hlen]
    rfl

def demoTree : OFPAction (ℕ × ℕ) :=
  .ct ⟨1, .field "reg0", 31, 4, 0⟩
    [.nx (.learn ⟨0, 10, 0x8000, 0, 0, 5, 0, 0, FlowSpecs.demoSpecs⟩),
     .ct ⟨0, .field "", 3, 0xff, 21⟩ [.nx (.nsh .decNshTtl), .other (3, 128)]]

theorem demoTree_kept : Kept niciraRyu demoOthers demoTree := by
  have hshort := short_of_mem (t := ⟨"reg0", .niciraExtended1, 0, 4⟩)
    generated_niciraRyu (by decide +kernel) rfl
  have hlearn : Kept niciraRyu demoOthers
      (.nx (.learn ⟨0, 10, 0x8000, 0, 0, 5, 0, 0, FlowSpecs.demoSpecs⟩)) := by
    have haligned : (FlowSpecs.demoSpecs.map FlowSpecs.NXFlowSpec.size).sum % 8 = 0 := rfl
    exact .nx FlowSpecs.demoSpecs_known haligned ⟨rfl, FlowSpecs.demoSpecs_kept⟩
  have hinner : Kept niciraRyu demoOthers
      (.ct ⟨0, .field "", 3, 0xff, 21⟩ [.nx (.nsh .decNshTtl), .other (3, 128)]) := by
    refine .ct (.inl rfl) fun t ht ↦ ?_
    rcases List.mem_pair.mp ht with rfl | rfl
    · exact .nx trivial nofun nofun
    · exact .other (otherKept_output _)
  refine .ct (.inr ⟨"reg0", _, rfl, by decide, hshort, by decide⟩) fun t ht ↦ ?_
  rcases List.mem_pair.mp ht with rfl | rfl
  · exact hlearn
  · exact hinner

theorem serialize_demoTree :
    (serialize niciraRyu demoOthers demoTree [] 0).toOption.isSome := by
  decide +kernel

theorem demoTree_reads : ∃ bs, serialize niciraRyu demoOthers demoTree [] 0 = .ok bs ∧
    ∀ fuel, bs.length ≤ fuel + 1 → demoOthers.actionParser (parse niciraRyu
      (parseActions niciraRyu demoOthers fuel) fuel) bs = .ok (demoTree, bs.length) := by
  have hsome := serialize_demoTree
  cases hout : serialize niciraRyu demoOthers demoTree [] 0 with
  | error e =>
    rw [hout] at hsome
    cases hsome
  | ok out =>
    obtain ⟨bs, -, -, rfl, hread⟩ := reads_of_kept demoTree_kept [] out hout
    refine ⟨_, rfl, fun fuel hfuel ↦ ?_⟩
    have hbs := hread fuel [] hfuel
    rwa [List.append_nil] at hbs

end Demo

end NshSfc.ActionTrees
