import Mathlib.Data.List.Nodup
import NshSfc.NxStructs

namespace NshSfc.NxmFields

open Library Python Ofproto NxStructs

inductive OxmClass
  | niciraExtended0
  | niciraExtended1
  | niciraExperimenter
  | niciraNshExperimenter
deriving DecidableEq

structure OxmType where
  name : String
  cls : OxmClass
  n : ℕ
  size : ℕ
deriving DecidableEq

def oxmTypes : List OxmType :=
  [⟨"in_port_nxm", .niciraExtended0, 0, 2⟩, ⟨"eth_dst_nxm", .niciraExtended0, 1, 6⟩,
   ⟨"eth_src_nxm", .niciraExtended0, 2, 6⟩, ⟨"eth_type_nxm", .niciraExtended0, 3, 2⟩,
   ⟨"vlan_tci", .niciraExtended0, 4, 2⟩, ⟨"nw_tos", .niciraExtended0, 5, 1⟩,
   ⟨"ip_proto_nxm", .niciraExtended0, 6, 1⟩, ⟨"ipv4_src_nxm", .niciraExtended0, 7, 4⟩,
   ⟨"ipv4_dst_nxm", .niciraExtended0, 8, 4⟩, ⟨"tcp_src_nxm", .niciraExtended0, 9, 2⟩,
   ⟨"tcp_dst_nxm", .niciraExtended0, 10, 2⟩, ⟨"udp_src_nxm", .niciraExtended0, 11, 2⟩,
   ⟨"udp_dst_nxm", .niciraExtended0, 12, 2⟩, ⟨"icmpv4_type_nxm", .niciraExtended0, 13, 1⟩,
   ⟨"icmpv4_code_nxm", .niciraExtended0, 14, 1⟩, ⟨"arp_op_nxm", .niciraExtended0, 15, 2⟩,
   ⟨"arp_spa_nxm", .niciraExtended0, 16, 4⟩, ⟨"arp_tpa_nxm", .niciraExtended0, 17, 4⟩,
   ⟨"tunnel_id_nxm", .niciraExtended1, 16, 8⟩, ⟨"arp_sha_nxm", .niciraExtended1, 17, 6⟩,
   ⟨"arp_tha_nxm", .niciraExtended1, 18, 6⟩, ⟨"ipv6_src_nxm", .niciraExtended1, 19, 16⟩,
   ⟨"ipv6_dst_nxm", .niciraExtended1, 20, 16⟩, ⟨"icmpv6_type_nxm", .niciraExtended1, 21, 1⟩,
   ⟨"icmpv6_code_nxm", .niciraExtended1, 22, 1⟩, ⟨"nd_target", .niciraExtended1, 23, 16⟩,
   ⟨"nd_sll", .niciraExtended1, 24, 6⟩, ⟨"nd_tll", .niciraExtended1, 25, 6⟩,
   ⟨"ip_frag", .niciraExtended1, 26, 1⟩, ⟨"ipv6_label", .niciraExtended1, 27, 4⟩,
   ⟨"ip_ecn_nxm", .niciraExtended1, 28, 1⟩, ⟨"nw_ttl", .niciraExtended1, 29, 1⟩,
   ⟨"mpls_ttl", .niciraExtended1, 30, 1⟩, ⟨"tun_ipv4_src", .niciraExtended1, 31, 4⟩,
   ⟨"tun_ipv4_dst", .niciraExtended1, 32, 4⟩, ⟨"pkt_mark", .niciraExtended1, 33, 4⟩,
   ⟨"tcp_flags_nxm", .niciraExtended1, 34, 2⟩, ⟨"conj_id", .niciraExtended1, 37, 4⟩,
   ⟨"tun_gbp_id", .niciraExtended1, 38, 2⟩, ⟨"tun_gbp_flags", .niciraExtended1, 39, 1⟩,
   ⟨"tun_flags", .niciraExtended1, 104, 2⟩, ⟨"ct_state", .niciraExtended1, 105, 4⟩,
   ⟨"ct_zone", .niciraExtended1, 106, 2⟩, ⟨"ct_mark", .niciraExtended1, 107, 4⟩,
   ⟨"ct_label", .niciraExtended1, 108, 16⟩, ⟨"tun_ipv6_src", .niciraExtended1, 109, 16⟩,
   ⟨"tun_ipv6_dst", .niciraExtended1, 110, 16⟩, ⟨"_recirc_id", .niciraExtended1, 36, 4⟩,
   ⟨"_dp_hash", .niciraExperimenter, 0, 4⟩, ⟨"nsh_flags", .niciraNshExperimenter, 1, 1⟩,
   ⟨"nsh_mdtype", .niciraNshExperimenter, 2, 1⟩, ⟨"nsh_np", .niciraNshExperimenter, 3, 1⟩,
   ⟨"nsh_spi", .niciraNshExperimenter, 4, 4⟩, ⟨"nsh_si", .niciraNshExperimenter, 5, 1⟩,
   ⟨"nsh_c1", .niciraNshExperimenter, 6, 4⟩, ⟨"nsh_c2", .niciraNshExperimenter, 7, 4⟩,
   ⟨"nsh_c3", .niciraNshExperimenter, 8, 4⟩, ⟨"nsh_c4", .niciraNshExperimenter, 9, 4⟩,
   ⟨"nsh_ttl", .niciraNshExperimenter, 10, 1⟩, ⟨"reg0", .niciraExtended1, 0, 4⟩,
   ⟨"reg1", .niciraExtended1, 1, 4⟩, ⟨"reg2", .niciraExtended1, 2, 4⟩,
   ⟨"reg3", .niciraExtended1, 3, 4⟩, ⟨"reg4", .niciraExtended1, 4, 4⟩,
   ⟨"reg5", .niciraExtended1, 5, 4⟩, ⟨"reg6", .niciraExtended1, 6, 4⟩,
   ⟨"reg7", .niciraExtended1, 7, 4⟩, ⟨"reg8", .niciraExtended1, 8, 4⟩,
   ⟨"reg9", .niciraExtended1, 9, 4⟩, ⟨"reg10", .niciraExtended1, 10, 4⟩,
   ⟨"reg11", .niciraExtended1, 11, 4⟩, ⟨"reg12", .niciraExtended1, 12, 4⟩,
   ⟨"reg13", .niciraExtended1, 13, 4⟩, ⟨"reg14", .niciraExtended1, 14, 4⟩,
   ⟨"reg15", .niciraExtended1, 15, 4⟩, ⟨"xxreg0", .niciraExtended1, 111, 16⟩,
   ⟨"xxreg1", .niciraExtended1, 112, 16⟩, ⟨"xxreg2", .niciraExtended1, 113, 16⟩,
   ⟨"xxreg3", .niciraExtended1, 114, 16⟩]

namespace OxmClass

def number : OxmClass → ℕ
  | .niciraExtended0 => 0x0000
  | .niciraExtended1 => 0x0001
  | .niciraExperimenter | .niciraNshExperimenter => 0xffff

def experimenterId : OxmClass → Option ℕ
  | .niciraExtended0 | .niciraExtended1 => none
  | .niciraExperimenter => some 0x00002320
  | .niciraNshExperimenter => some 0x005ad650

end OxmClass

namespace OxmType

def oxmType (t : OxmType) : ℕ := t.n ||| (t.cls.number <<< 7)

def num (t : OxmType) : OxmNumber :=
  match t.cls.experimenterId with
  | none => .field t.oxmType
  | some id => .experimenter id t.oxmType

def expHdr (t : OxmType) : List UInt8 := t.cls.experimenterId.elim [] (toBytes 4)

def header (t : OxmType) : List UInt8 :=
  toBytes 4 ((t.oxmType <<< 9) ||| (t.expHdr.length + t.size)) ++ t.expHdr

end OxmType

/-- The table that `oxm_fields` builds for a protocol ends with this one, so that its entries come
last: a name or a number leads to the last entry for it. -/
structure Generated (ryu : Ryu) : Prop where
  fromUserHeader : ∀ name t, oxmTypes.reverse.find? (·.name = name) = some t →
    ryu.oxmFromUserHeader name = .ok t.num
  toUserHeader : ∀ num t, oxmTypes.reverse.find? (·.num = num) = some t →
    ryu.oxmToUserHeader num = .ok t.name
  serializeHeader : ∀ num t, oxmTypes.reverse.find? (·.num = num) = some t →
    ryu.oxmSerializeHeader num = .ok t.header
  parseHeader : ∀ t ∈ oxmTypes, t.cls.number ≠ 0xffff → ∀ rest,
    ryu.oxmParseHeader (t.header ++ rest) = .ok (.field (fromBytes (t.header.take 4) >>> 9), 4)
  parseHeader_experimenter : ∀ t ∈ oxmTypes, t.cls.number = 0xffff → ∀ rest,
    ryu.oxmParseHeader (t.header ++ rest) =
      .ok (.experimenter (fromBytes (t.header.drop 4)) (fromBytes (t.header.take 4) >>> 9), 8)
  parseHeader_cut : ∀ t ∈ oxmTypes, t.cls.number = 0xffff →
    ryu.oxmParseHeader (t.header.take 4) = .error .structError

section Table

variable {t : OxmType}

theorem nodup_names : (oxmTypes.map OxmType.name).Nodup := by
  decide +kernel

theorem nodup_nums : (oxmTypes.map OxmType.num).Nodup := by
  decide +kernel

theorem find_name (ht : t ∈ oxmTypes) : oxmTypes.reverse.find? (·.name = t.name) = some t := by
  refine find?_unique (List.mem_reverse.mpr ht) (by simp) fun u hu hname ↦ ?_
  exact List.inj_on_of_nodup_map nodup_names (List.mem_reverse.mp hu) ht (by simpa using hname)

theorem find_num (ht : t ∈ oxmTypes) : oxmTypes.reverse.find? (·.num = t.num) = some t := by
  refine find?_unique (List.mem_reverse.mpr ht) (by simp) fun u hu hnum ↦ ?_
  exact List.inj_on_of_nodup_map nodup_nums (List.mem_reverse.mp hu) ht (by simpa using hnum)

theorem header_parts (ht : t ∈ oxmTypes) :
    let n := (t.oxmType <<< 9) ||| (t.expHdr.length + t.size)
    n < 256 ^ 4 ∧ n >>> 9 = t.oxmType ∧ n >>> 16 = t.cls.number := by
  revert t
  decide +kernel

theorem length_expHdr (t : OxmType) :
    t.expHdr.length = if t.cls.experimenterId = none then 0 else 4 := by
  rw [OxmType.expHdr]
  cases t.cls <;> rfl

end Table

section Named

variable {ryu : Ryu} {t : OxmType} {rest : List UInt8}

theorem length_header (t : OxmType) :
    t.header.length = if t.cls.experimenterId = none then 4 else 8 := by
  rw [OxmType.header, List.length_append, length_toBytes, length_expHdr]
  split_ifs <;> rfl

theorem experimenter_of_number (h : t.cls.number = 0xffff) : ¬ t.cls.experimenterId = none := by
  revert h
  cases t.cls <;> decide

theorem take_header (t : OxmType) (rest : List UInt8) :
    (t.header ++ rest).take 4 = t.header.take 4 ∧ 4 ≤ (t.header ++ rest).length := by
  have hlen : 4 ≤ t.header.length := by
    rw [length_header]
    split_ifs <;> omega
  refine ⟨List.take_append_of_le_length hlen, ?_⟩
  rw [List.length_append]
  omega

theorem fromBytes_header (ht : t ∈ oxmTypes) :
    fromBytes (t.header.take 4) >>> 9 = t.oxmType ∧
      fromBytes (t.header.take 4) >>> 16 = t.cls.number := by
  obtain ⟨hlt, hnine, hsixteen⟩ := header_parts ht
  rw [OxmType.header, List.take_left' (length_toBytes 4 _), fromBytes_toBytes, Nat.mod_eq_of_lt hlt]
  exact ⟨hnine, hsixteen⟩

theorem parseHeader_append (hgen : Generated ryu) (ht : t ∈ oxmTypes) (rest : List UInt8) :
    ryu.oxmParseHeader (t.header ++ rest) = .ok (t.num, t.header.length) := by
  have hnine := (fromBytes_header ht).1
  have hlen := length_header t
  cases hid : t.cls.experimenterId with
  | none =>
    have hnumber : t.cls.number ≠ 0xffff := by
      revert hid
      cases t.cls <;> decide
    rw [if_pos hid] at hlen
    rw [hgen.parseHeader t ht hnumber, hnine, hlen, OxmType.num, hid]
  | some id =>
    have hnumber : t.cls.number = 0xffff := by
      revert hid
      cases t.cls <;> simp [OxmClass.experimenterId, OxmClass.number]
    have hlt : id < 256 ^ 4 := by
      revert hid
      cases t.cls <;> simp +contextual [OxmClass.experimenterId, eq_comm]
    have hread : fromBytes (t.header.drop 4) = id := by
      rw [OxmType.header, OxmType.expHdr, hid, List.drop_left' (length_toBytes 4 _)]
      dsimp only [Option.elim]
      rw [fromBytes_toBytes, Nat.mod_eq_of_lt hlt]
    rw [if_neg (by simp [hid])] at hlen
    rw [hgen.parseHeader_experimenter t ht hnumber, hread, hnine, hlen, OxmType.num, hid]

theorem named_of_mem (hgen : Generated ryu) (ht : t ∈ oxmTypes) : ryu.Named t.name t.header where
  header := by
    rw [Ryu.header, hgen.fromUserHeader _ t (find_name ht), ok_bind,
      hgen.serializeHeader _ t (find_num ht)]
  readHeader rest := by
    rw [Ryu.readHeader, parseHeader_append hgen ht, ok_bind]
    dsimp only
    rw [hgen.toUserHeader _ t (find_num ht)]
    rfl

theorem short_of_mem (hgen : Generated ryu) (ht : t ∈ oxmTypes) (hid : t.cls.experimenterId = none) :
    ryu.Short t.name t.header where
  toNamed := named_of_mem hgen ht
  length := by rw [length_header, if_pos hid]

/-- An action with 4 bytes for the header of a field comes back with a field of the table if and only
if the field is not one of an experimenter: those of the service header are not. -/
theorem field_reads_back_iff {c : Named} {a : c.Fields} {bs : List UInt8} (hgen : Generated ryu)
    (ht : t ∈ oxmTypes) (h : c.serializeBody ryu a t.name = .ok bs) (rest : List UInt8) :
    c.parser ryu (bs ++ rest) = .ok (a, t.name) ↔ t.cls.experimenterId = none := by
  refine ⟨fun hparse ↦ ?_, fun hid ↦ Named.parser_append (short_of_mem hgen ht hid) h rest⟩
  by_contra hid
  have hnumber : t.cls.number = 0xffff := by
    revert hid
    cases t.cls <;> decide
  obtain ⟨oxmData, hoxm, h⟩ := bind_eq_ok h
  rw [(named_of_mem hgen ht).header] at hoxm
  obtain rfl := Except.ok.inj hoxm
  obtain ⟨packed, hpacked, h⟩ := bind_eq_ok h
  obtain rfl := Except.ok.inj h
  obtain ⟨k, hk⟩ := Named.fill_eq ryu c (ryu.msgPackInto [] 0 packed)
  -- only the first half of the header is there
  have htake : (clip 4 t.header).1 = t.header.take 4 := by
    have hlen : t.header.length = 8 := by rw [length_header, if_neg hid]
    exact List.take_append_of_le_length (by omega)
  have hhalf := hgen.parseHeader_cut t ht hnumber
  rw [hk, ryu.msgPackInto_nil, List.append_assoc, Named.parser, c.fmtStr.unpackFrom_append hpacked,
    ok_bind] at hparse
  dsimp only at hparse
  rw [htake, Ryu.readHeader, hhalf] at hparse
  cases hparse

end Named

section Demo

def msgPackInto (buf : List UInt8) (offset : ℕ) (data : List UInt8) : List UInt8 :=
  let buf := buf ++ List.replicate (offset - buf.length) 0
  buf.take offset ++ data ++ buf.drop (offset + data.length)

theorem msgPackInto_behind (buf : List UInt8) (offset : ℕ) (data : List UInt8)
    (h : buf.length ≤ offset) :
    msgPackInto buf offset data = buf ++ List.replicate (offset - buf.length) 0 ++ data := by
  have hlen : (buf ++ List.replicate (offset - buf.length) (0 : UInt8)).length = offset := by
    rw [List.length_append, List.length_replicate]
    omega
  rw [msgPackInto, List.take_of_length_le hlen.le, List.drop_eq_nil_of_le (by omega),
    List.append_nil]

theorem msgPackInto_over (buf : List UInt8) (offset : ℕ) (data : List UInt8)
    (h : offset + data.length ≤ buf.length) :
    msgPackInto buf offset data = buf.take offset ++ data ++ buf.drop (offset + data.length) := by
  have hzero : offset - buf.length = 0 := by omega
  rw [msgPackInto, hzero, List.replicate_zero, List.append_nil]

def parseHeader (buf : List UInt8) : Except PyError (OxmNumber × ℕ) :=
  let header := fromBytes (buf.take 4)
  if buf.length < 4 then .error .structError
  else if header >>> 16 = 0xffff then
    if buf.length < 8 then .error .structError
    else .ok (.experimenter (fromBytes ((buf.drop 4).take 4)) (header >>> 9), 8)
  else .ok (.field (header >>> 9), 4)

def niciraRyu : Ryu where
  roundUp x y := (x + y - 1) / y * y
  msgPackInto := msgPackInto
  oxmFromUserHeader name :=
    ((oxmTypes.reverse.find? (·.name = name)).map OxmType.num).elim (.error .keyError) .ok
  oxmToUserHeader num :=
    ((oxmTypes.reverse.find? (·.num = num)).map OxmType.name).elim (.error .keyError) .ok
  oxmSerializeHeader num :=
    ((oxmTypes.reverse.find? (·.num = num)).map OxmType.header).elim (.error .keyError) .ok
  oxmParseHeader := parseHeader
  oxmSerialize _ _ _ := .error .keyError
  oxmParse _ := .error .structError
  intFromUser := toBytes
  intToUser size bs := if bs.length < size then .error .typeError else .ok (fromBytes (bs.take size))
  ipv4FromUser _ := .error .valueError
  ipv4ToUser _ := .error .valueError
  ipv6FromUser _ := .error .valueError
  ipv6ToUser _ := .error .valueError
  roundUp_eq _ _ := rfl
  msgPackInto_behind := msgPackInto_behind
  msgPackInto_over := msgPackInto_over
  intFromUser_eq _ _ := rfl
  intToUser_eq _ _ := rfl

theorem generated_niciraRyu : Generated niciraRyu where
  fromUserHeader name t h := by simp [niciraRyu, h]
  toUserHeader num t h := by simp [niciraRyu, h]
  serializeHeader num t h := by simp [niciraRyu, h]
  parseHeader t ht hnumber rest := by
    obtain ⟨htake, hlong⟩ := take_header t rest
    have hsixteen := (fromBytes_header ht).2
    simp only [niciraRyu, parseHeader, htake]
    rw [if_neg (by omega), if_neg (by rw [hsixteen]; exact hnumber)]
  parseHeader_experimenter t ht hnumber rest := by
    obtain ⟨htake, hlong⟩ := take_header t rest
    have hsixteen := (fromBytes_header ht).2
    have hlen : t.header.length = 8 := by
      rw [length_header, if_neg (experimenter_of_number hnumber)]
    have hfour : (t.header.drop 4).length = 4 := by
      rw [List.length_drop, hlen]
    have hdrop : ((t.header ++ rest).drop 4).take 4 = t.header.drop 4 := by
      rw [List.drop_append_of_le_length (by omega), List.take_left' hfour]
    simp only [niciraRyu, parseHeader, htake, hdrop]
    rw [if_neg (by omega), if_pos (hsixteen.trans hnumber),
      if_neg (by rw [List.length_append]; omega)]
  parseHeader_cut t ht hnumber := by
    have hsixteen := (fromBytes_header ht).2
    have hshort : (t.header.take 4).length ≤ 4 := List.length_take_le 4 _
    have hlt : (t.header.take 4).length < 8 := by omega
    simp only [niciraRyu, parseHeader, List.take_take, min_self]
    rw [if_pos (hsixteen.trans hnumber), if_pos hlt]
    split_ifs <;> rfl

def spi : OxmType := ⟨"nsh_spi", .niciraNshExperimenter, 4, 4⟩

def reg0 : OxmType := ⟨"reg0", .niciraExtended1, 0, 4⟩

theorem serializeBody_reg0 : Named.serializeBody niciraRyu .stackPush ⟨0, 31⟩ reg0.name =
    .ok [0, 0, 0, 1, 0, 4, 0, 31, 0, 0, 0, 0] := by
  rfl

theorem serializeBody_spi : Named.serializeBody niciraRyu .stackPush ⟨0, 31⟩ spi.name =
    .ok [0, 0, 255, 255, 8, 8, 0, 31, 0, 0, 0, 0] := by
  rfl

/-- A register pushed on the stack is read again, the path of a service header is not. -/
theorem stackPush_fields :
    Named.parser niciraRyu .stackPush [0, 0, 0, 1, 0, 4, 0, 31, 0, 0, 0, 0] = .ok (⟨0, 31⟩, "reg0") ∧
    Named.parser niciraRyu .stackPush [0, 0, 255, 255, 8, 8, 0, 31, 0, 0, 0, 0] ≠
      .ok (⟨0, 31⟩, "nsh_spi") :=
  ⟨(field_reads_back_iff generated_niciraRyu (by decide +kernel) serializeBody_reg0 []).mpr rfl,
    fun h ↦ nomatch
      (field_reads_back_iff generated_niciraRyu (by decide +kernel) serializeBody_spi []).mp h⟩

end Demo

end NshSfc.NxmFields
