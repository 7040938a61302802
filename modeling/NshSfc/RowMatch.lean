import NshSfc.Database
import NshSfc.OpenFlow

namespace NshSfc.RowMatch

open Library Python Database OpenFlow

/-- The defaults of `eth_type` and `ip_proto`. The UDP test names `udp_src` twice in the
source, so `udp_dst` alone does not set the protocol. -/
def deriveTypes (row : FlowRow) : FlowRow :=
  { row with
    ethType :=
      if truthy row.ethType then row.ethType
      else if truthy row.ipv4Src || truthy row.ipv4Dst then some 0x0800
      else if truthy row.ipv6Src || truthy row.ipv6Dst then some 0x86DD
      else row.ethType
    ipProto :=
      if truthy row.ipProto then row.ipProto
      else if truthy row.tcpSrc || truthy row.tcpDst then some 0x06
      else if truthy row.udpSrc || truthy row.udpSrc then some 0x11
      else row.ipProto }

@[simp] theorem deriveTypes_id (row : FlowRow) : (deriveTypes row).id = row.id := rfl

@[simp] theorem deriveTypes_serviceId (row : FlowRow) :
    (deriveTypes row).serviceId = row.serviceId := rfl

def ethFields (row : FlowRow) : List (Field × Option Value) :=
  [(.ethSrc, row.ethSrc.map .str), (.ethDst, row.ethDst.map .str)]

def flowMatch (leading : List (Field × Option Value)) (row : FlowRow) : Except PyError OFPMatch := do
  let ipv4Src ← ipv4ToInt row.ipv4Src
  let ipv4Dst ← ipv4ToInt row.ipv4Dst
  return createMatch (leading ++
    [(.ethType, row.ethType.map .int),
     (.ipv4Src, some (.int ipv4Src)),
     (.ipv4Dst, some (.int ipv4Dst)),
     (.ipProto, row.ipProto.map .int),
     (.tcpSrc, row.tcpSrc.map .int),
     (.tcpDst, row.tcpDst.map .int),
     (.udpSrc, row.udpSrc.map .int),
     (.udpDst, row.udpDst.map .int),
     (.ipv6Src, row.ipv6Src.map .str),
     (.ipv6Dst, row.ipv6Dst.map .str)])

def matchAdd (row : FlowRow) : Except PyError OFPMatch := flowMatch (ethFields row) row

def matchDel (row : FlowRow) : Except PyError OFPMatch := flowMatch (ethFields row) row

def matchCommon (row : FlowRow) : Except PyError OFPMatch := flowMatch (ethFields row) row

def matchEntryPoint (inPort : Int) (row : FlowRow) : Except PyError OFPMatch :=
  flowMatch ((.inPort, some (.int inPort)) :: ethFields row) row

/-- The match of a middle entry has no Ethernet addresses. -/
def matchMiddle (inPort : Option Int) (row : FlowRow) : Except PyError OFPMatch :=
  flowMatch [(.inPort, inPort.map .int)] row

theorem createMatch_cons_fields (f : Field) (v : Option Value) (fs : List (Field × Option Value))
    (g : Field) : OFPMatch.fields (createMatch ((f, v) :: fs)) g =
      if g = f ∧ truthy v then v else OFPMatch.fields (createMatch fs) g := by
  cases v with
  | none => simp [createMatch, OFPMatch.fields, OFPMatch.list]
  | some v =>
    by_cases hv : truthy v
    · by_cases hg : g = f
      · simp [createMatch, OFPMatch.fields, OFPMatch.list, hv, hg]
      · have hb : (g == f) = false := by simpa using hg
        simp [createMatch, OFPMatch.fields, OFPMatch.list, List.lookup_cons, hv, hg, hb]
    · simp [createMatch, OFPMatch.fields, OFPMatch.list, hv]

@[simp] theorem createMatch_nil_fields (g : Field) : OFPMatch.fields (createMatch []) g = none := rfl

theorem createMatch_packs {fs : List (Field × Option Value)} :
    (createMatch fs).packs ↔ ∀ f v, (f, some v) ∈ fs → truthy v → f.packs v := by
  simp only [createMatch, OFPMatch.packs, List.all_eq_true, List.mem_filterMap]
  constructor
  · intro h f v hmem hv
    exact h (f, v) ⟨(f, some v), hmem, by simp [hv]⟩
  · rintro h a ⟨⟨f, o⟩, hmem, ha⟩
    cases o with
    | none => cases ha
    | some v =>
      by_cases hv : truthy v
      · obtain rfl : (f, v) = a := by simpa [hv] using ha
        exact h f v hmem hv
      · simp [hv] at ha

def given {α : Type} (c : α → Value) (o : Option α) : Option Value :=
  if truthy (o.map c) then o.map c else none

theorem given_eq_some {α : Type} {c : α → Value} {o : Option α} {v : Value} (h : given c o = some v) :
    o.map c = some v := by
  unfold given at h
  split at h
  · exact h
  · cases h

def withoutEth (m : FieldMatch) : FieldMatch := (m.set .ethSrc none).set .ethDst none

theorem withoutEth_le (m : FieldMatch) : withoutEth m ≤ m := by
  intro f v hv
  unfold withoutEth at hv
  by_cases hd : f = .ethDst
  · simp [hd] at hv
  · rw [Match.set_of_ne hd] at hv
    by_cases hs : f = .ethSrc
    · simp [hs] at hv
    · rwa [Match.set_of_ne hs] at hv

theorem flowMatch_ok {leading : List (Field × Option Value)} {row : FlowRow} {m : OFPMatch} :
    flowMatch leading row = .ok m ↔ ∃ src dst, ipv4ToInt row.ipv4Src = .ok src ∧
      ipv4ToInt row.ipv4Dst = .ok dst ∧ m = createMatch (leading ++
        [(.ethType, row.ethType.map .int), (.ipv4Src, some (.int src)),
         (.ipv4Dst, some (.int dst)), (.ipProto, row.ipProto.map .int),
         (.tcpSrc, row.tcpSrc.map .int), (.tcpDst, row.tcpDst.map .int),
         (.udpSrc, row.udpSrc.map .int), (.udpDst, row.udpDst.map .int),
         (.ipv6Src, row.ipv6Src.map .str), (.ipv6Dst, row.ipv6Dst.map .str)]) := by
  unfold flowMatch
  cases hs : ipv4ToInt row.ipv4Src with
  | error e => simp [bind, Except.bind]
  | ok src =>
    cases hd : ipv4ToInt row.ipv4Dst with
    | error e => simp [bind, Except.bind]
    | ok dst =>
      simp only [bind, Except.bind, pure, Except.pure, Except.ok.injEq]
      constructor
      · rintro rfl; exact ⟨src, dst, rfl, rfl, rfl⟩
      · rintro ⟨_, _, rfl, rfl, rfl⟩; rfl

theorem flowMatch_ok_of_ok {leading : List (Field × Option Value)} {row : FlowRow} {m : OFPMatch}
    (h : flowMatch leading row = .ok m) (leading' : List (Field × Option Value)) :
    ∃ m', flowMatch leading' row = .ok m' := by
  obtain ⟨src, dst, hs, hd, -⟩ := flowMatch_ok.mp h
  exact ⟨_, flowMatch_ok.mpr ⟨src, dst, hs, hd, rfl⟩⟩

theorem exists_middle {leading : List (Field × Option Value)} {row : FlowRow} {m : OFPMatch}
    (h : flowMatch leading row = .ok m) :
    ∃ m' : Int → OFPMatch, ∀ p, matchMiddle (some p) row = .ok (m' p) := by
  have hall : ∀ p : Int, ∃ m', matchMiddle (some p) row = .ok m' := fun p ↦ flowMatch_ok_of_ok h _
  choose m' hm' using hall
  exact ⟨m', hm'⟩

theorem flowMatch_error {leading : List (Field × Option Value)} {row : FlowRow} :
    flowMatch leading row ≠ .error .keyError := by
  intro h
  unfold flowMatch at h
  cases hs : ipv4ToInt row.ipv4Src with
  | error e =>
    rw [hs] at h
    obtain rfl : e = .keyError := Except.error.inj h
    exact ipv4ToInt_error hs
  | ok src =>
    cases hd : ipv4ToInt row.ipv4Dst with
    | error e =>
      rw [hs, hd] at h
      obtain rfl : e = .keyError := Except.error.inj h
      exact ipv4ToInt_error hd
    | ok dst =>
      rw [hs, hd] at h
      cases h

theorem matchEntryPoint_fields {row : FlowRow} {m e : OFPMatch} {p : Int}
    (hm : matchCommon row = .ok m) (he : matchEntryPoint p row = .ok e) :
    OFPMatch.fields e = (OFPMatch.fields m).set .inPort (given .int (some p)) := by
  obtain ⟨src, dst, hs, hd, rfl⟩ := flowMatch_ok.mp hm
  obtain ⟨src', dst', hs', hd', rfl⟩ := flowMatch_ok.mp he
  obtain rfl := Except.ok.inj (hs.symm.trans hs')
  obtain rfl := Except.ok.inj (hd.symm.trans hd')
  funext f
  cases f <;> simp [createMatch_cons_fields, ethFields, Match.set, given]

theorem matchMiddle_fields {row : FlowRow} {m e : OFPMatch} {p : Option Int}
    (hm : matchCommon row = .ok m) (he : matchMiddle p row = .ok e) :
    OFPMatch.fields e = (withoutEth (OFPMatch.fields m)).set .inPort (given .int p) := by
  obtain ⟨src, dst, hs, hd, rfl⟩ := flowMatch_ok.mp hm
  obtain ⟨src', dst', hs', hd', rfl⟩ := flowMatch_ok.mp he
  obtain rfl := Except.ok.inj (hs.symm.trans hs')
  obtain rfl := Except.ok.inj (hd.symm.trans hd')
  funext f
  cases f <;> simp [createMatch_cons_fields, ethFields, withoutEth, Match.set, given]

section Packs

variable {row : FlowRow} {m e : OFPMatch} {p : Option Int}

theorem matchEntryPoint_packs {p : Int} (hm : matchCommon row = .ok m)
    (he : matchEntryPoint p row = .ok e) : e.packs ↔ m.packs := by
  obtain ⟨src, dst, hs, hd, rfl⟩ := flowMatch_ok.mp hm
  obtain ⟨src', dst', hs', hd', rfl⟩ := flowMatch_ok.mp he
  obtain rfl := Except.ok.inj (hs.symm.trans hs')
  obtain rfl := Except.ok.inj (hd.symm.trans hd')
  rw [createMatch_packs, createMatch_packs, List.cons_append]
  constructor
  · intro h f v hmem hv
    exact h f v (List.mem_cons_of_mem _ hmem) hv
  · intro h f v hmem hv
    rcases List.mem_cons.mp hmem with heq | hmem
    · cases heq
      rfl
    · exact h f v hmem hv

theorem matchMiddle_packs (hm : matchCommon row = .ok m) (he : matchMiddle p row = .ok e)
    (h : m.packs) : e.packs := by
  obtain ⟨src, dst, hs, hd, rfl⟩ := flowMatch_ok.mp hm
  obtain ⟨src', dst', hs', hd', rfl⟩ := flowMatch_ok.mp he
  obtain rfl := Except.ok.inj (hs.symm.trans hs')
  obtain rfl := Except.ok.inj (hd.symm.trans hd')
  rw [createMatch_packs] at h ⊢
  intro f v hmem hv
  rcases List.mem_cons.mp hmem with heq | hmem
  · cases p with
    | none => cases heq
    | some p =>
      cases heq
      rfl
  · exact h f v (List.mem_append_right _ hmem) hv

theorem matchCommon_withoutEth (hm : matchCommon row = .ok m) (h : m.packs) :
    withoutEth (OFPMatch.fields m) = OFPMatch.fields m := by
  obtain ⟨src, dst, hs, hd, rfl⟩ := flowMatch_ok.mp hm
  rw [createMatch_packs] at h
  have hsrc : ∀ s, row.ethSrc = some s → s = "" := by
    intro s hrow
    by_contra hs
    exact Bool.false_ne_true (h .ethSrc (.str s) (by simp [ethFields, hrow]) (by simpa using hs))
  have hdst : ∀ s, row.ethDst = some s → s = "" := by
    intro s hrow
    by_contra hs
    exact Bool.false_ne_true (h .ethDst (.str s) (by simp [ethFields, hrow]) (by simpa using hs))
  funext f
  by_cases hfd : f = .ethDst
  · subst hfd
    cases hrow : row.ethDst with
    | none => simp [withoutEth, createMatch_cons_fields, ethFields, hrow]
    | some s => simp [withoutEth, createMatch_cons_fields, ethFields, hrow, hdst s hrow]
  by_cases hfs : f = .ethSrc
  · subst hfs
    cases hrow : row.ethSrc with
    | none => simp [withoutEth, createMatch_cons_fields, ethFields, hrow, Match.set]
    | some s => simp [withoutEth, createMatch_cons_fields, ethFields, hrow, hsrc s hrow, Match.set]
  · rw [withoutEth, Match.set_of_ne hfd, Match.set_of_ne hfs]

end Packs

theorem matchCommon_inPort {row : FlowRow} {m : OFPMatch} (h : matchCommon row = .ok m) :
    OFPMatch.fields m .inPort = none := by
  obtain ⟨src, dst, hs, hd, rfl⟩ := flowMatch_ok.mp h
  simp [createMatch_cons_fields, ethFields]

theorem matchCommon_nshSpi {row : FlowRow} {m : OFPMatch} (h : matchCommon row = .ok m) :
    OFPMatch.fields m .nshSpi = none := by
  obtain ⟨src, dst, hs, hd, rfl⟩ := flowMatch_ok.mp h
  simp [createMatch_cons_fields, ethFields]

theorem truthy_of_ipv4ToInt {o : Option String} {n : Int} (h : ipv4ToInt o = .ok n) :
    truthy o := by
  cases o with
  | none => cases h
  | some s =>
    by_contra hs
    obtain rfl : s = "" := by simpa using hs
    cases h

theorem matchCommon_ethType {row : FlowRow} {m : OFPMatch}
    (h : matchCommon (deriveTypes row) = .ok m) :
    ∃ t, OFPMatch.fields m .ethType = some (.int t) := by
  obtain ⟨src, dst, hs, hd, rfl⟩ := flowMatch_ok.mp h
  have hsrc : truthy row.ipv4Src := truthy_of_ipv4ToInt hs
  obtain ⟨t, ht, ht0⟩ : ∃ t, (deriveTypes row).ethType = some t ∧ t ≠ 0 := by
    cases hrow : row.ethType with
    | none => exact ⟨0x0800, by simp [deriveTypes, hrow, hsrc], by decide⟩
    | some t =>
      by_cases ht : t = 0
      · exact ⟨0x0800, by simp [deriveTypes, hrow, hsrc, ht], by decide⟩
      · exact ⟨t, by simp [deriveTypes, hrow, ht], ht⟩
  exact ⟨t, by simp [createMatch_cons_fields, ethFields, ht, ht0]⟩

theorem withoutEth_inPort {m : FieldMatch} (h : m .inPort = none) : withoutEth m .inPort = none :=
  Match.apply_eq_none_of_le (withoutEth_le m) h

end NshSfc.RowMatch
