import NshSfc.Demo
import NshSfc.DottedQuads
import NshSfc.Keys
import NshSfc.Pipeline

namespace NshSfc.Columns

open Library Library.Script Python Database OpenFlow RowMatch App Packets Controller Sent Handler
  Keys Pipeline DottedQuads

variable {row : FlowRow} {m : OFPMatch}

/-- What the columns of a row say of a packet. NULL says nothing, and an IPv4 address is a dotted
quad. -/
def column (row : FlowRow) : FieldMatch
  | .ethSrc => row.ethSrc.map .str
  | .ethDst => row.ethDst.map .str
  | .ethType => row.ethType.map .int
  | .ipv4Src => (row.ipv4Src.bind address).map .int
  | .ipv4Dst => (row.ipv4Dst.bind address).map .int
  | .ipProto => row.ipProto.map .int
  | .tcpSrc => row.tcpSrc.map .int
  | .tcpDst => row.tcpDst.map .int
  | .udpSrc => row.udpSrc.map .int
  | .udpDst => row.udpDst.map .int
  | .ipv6Src => row.ipv6Src.map .str
  | .ipv6Dst => row.ipv6Dst.map .str
  | .inPort | .nshSpi | .nshSi => none

def taken (row : FlowRow) : FieldMatch
  | .ipv4Src => (ipv4ToInt row.ipv4Src).toOption.map .int
  | .ipv4Dst => (ipv4ToInt row.ipv4Dst).toOption.map .int
  | f => column row f

def NonZero (row : FlowRow) : Prop := ∀ f v, column row f = some v → truthy v

structure Legible (row : FlowRow) : Prop where
  src : ∀ s, row.ipv4Src = some s → (address s).isSome
  dst : ∀ s, row.ipv4Dst = some s → (address s).isSome

/-- An IPv4 address is given. -/
def Given (o : Option String) : Prop := ∃ s n, o = some s ∧ address s = some n

theorem Given.read {o : Option String} (h : Given o) :
    ∃ n, ipv4ToInt o = .ok n ∧ o.bind address = some n := by
  obtain ⟨s, n, rfl, hn⟩ := h
  exact ⟨n, ipv4ToInt_of_address hn, hn⟩

theorem Given.legible (hs : Given row.ipv4Src) (hd : Given row.ipv4Dst) : Legible row := by
  obtain ⟨s, n, hs, hn⟩ := hs
  obtain ⟨d, k, hd, hk⟩ := hd
  constructor
  · intro s' hs'
    obtain rfl := Option.some.inj (hs.symm.trans hs')
    simp [hn]
  · intro d' hd'
    obtain rfl := Option.some.inj (hd.symm.trans hd')
    simp [hk]

theorem Legible.given (h : Legible row) {src dst : Int} (hs : ipv4ToInt row.ipv4Src = .ok src)
    (hd : ipv4ToInt row.ipv4Dst = .ok dst) : Given row.ipv4Src ∧ Given row.ipv4Dst := by
  have hgiven : ∀ {o : Option String} {n : Int}, ipv4ToInt o = .ok n →
      (∀ s, o = some s → (address s).isSome) → Given o := by
    intro o n ho hsome
    cases o with
    | none => cases ho
    | some s =>
      obtain ⟨k, hk⟩ := Option.isSome_iff_exists.mp (hsome s rfl)
      exact ⟨s, k, rfl, hk⟩
  exact ⟨hgiven hs h.src, hgiven hd h.dst⟩

theorem column_eq_taken (hs : Given row.ipv4Src) (hd : Given row.ipv4Dst) :
    column row = taken row := by
  obtain ⟨n, hread, hn⟩ := hs.read
  obtain ⟨k, hread', hk⟩ := hd.read
  funext f
  cases f <;> simp [taken, column, hread, hn, hread', hk, Except.toOption]

theorem filter_truthy (o : Option Value) : o.filter truthy = if truthy o then o else none := by
  cases o with
  | none => rfl
  | some v => simp [Option.filter]

def sharedFields : List Field :=
  [.ethType, .ipv4Src, .ipv4Dst, .ipProto, .tcpSrc, .tcpDst, .udpSrc, .udpDst, .ipv6Src, .ipv6Dst]

theorem flowMatch_eq {leading : List (Field × Option Value)} (h : flowMatch leading row = .ok m) :
    m = createMatch (leading ++ sharedFields.map fun f ↦ (f, taken row f)) := by
  obtain ⟨src, dst, hs, hd, rfl⟩ := flowMatch_ok.mp h
  simp only [sharedFields, List.map_cons, List.map_nil, taken, column, hs, hd]
  rfl

theorem matchAdd_eq (h : matchAdd row = .ok m) :
    m = createMatch ((.ethSrc :: .ethDst :: sharedFields).map fun f ↦ (f, taken row f)) :=
  flowMatch_eq h

theorem taken_of_not_mem {f : Field} (hf : f ∉ Field.ethSrc :: .ethDst :: sharedFields) :
    taken row f = none := by
  cases f <;> first | rfl | exact absurd (by decide) hf

theorem createMatch_map_fields (fs : List Field) (g : FieldMatch) (f : Field) :
    OFPMatch.fields (createMatch (fs.map fun f ↦ (f, g f))) f =
      if f ∈ fs then (g f).filter truthy else none := by
  induction fs with
  | nil => rfl
  | cons f' fs ih =>
    rw [List.map_cons, createMatch_cons_fields, ih, filter_truthy]
    by_cases hf : f = f'
    · subst hf
      by_cases hv : truthy (g f) <;> simp [hv]
    · simp [hf]

theorem matchAdd_fields (h : matchAdd row = .ok m) (f : Field) :
    OFPMatch.fields m f = (taken row f).filter truthy := by
  rw [matchAdd_eq h, createMatch_map_fields]
  split_ifs with hf
  · rfl
  · rw [taken_of_not_mem hf]
    rfl

theorem exists_matchAdd (hs : Given row.ipv4Src) (hd : Given row.ipv4Dst) :
    ∃ m, matchAdd (deriveTypes row) = .ok m := by
  obtain ⟨src, hs, -⟩ := hs.read
  obtain ⟨dst, hd, -⟩ := hd.read
  exact ⟨_, flowMatch_ok.mpr ⟨src, dst, hs, hd, rfl⟩⟩

section Derived

theorem deriveTypes_ethType (row : FlowRow) :
    truthy (deriveTypes row).ethType ∨ (deriveTypes row).ethType = row.ethType := by
  simp only [deriveTypes]
  split_ifs with h h₄ h₆
  · exact .inr rfl
  · exact .inl rfl
  · exact .inl rfl
  · exact .inr rfl

theorem deriveTypes_ipProto (row : FlowRow) :
    truthy (deriveTypes row).ipProto ∨ (deriveTypes row).ipProto = row.ipProto := by
  simp only [deriveTypes]
  split_ifs with h ht hu
  · exact .inr rfl
  · exact .inl rfl
  · exact .inl rfl
  · exact .inr rfl

theorem column_deriveTypes {f : Field} (ht : f ≠ .ethType) (hp : f ≠ .ipProto) :
    column (deriveTypes row) f = column row f := by
  cases f <;> first | rfl | contradiction

theorem NonZero.column_le (h : NonZero row) : column row ≤ column (deriveTypes row) := by
  intro f v hv
  have htruthy := h f v hv
  by_cases ht : f = .ethType
  · subst ht
    obtain ⟨t, hrow, rfl⟩ := Option.map_eq_some_iff.mp hv
    simp_all [column, deriveTypes]
  by_cases hp : f = .ipProto
  · subst hp
    obtain ⟨n, hrow, rfl⟩ := Option.map_eq_some_iff.mp hv
    simp_all [column, deriveTypes]
  · rwa [column_deriveTypes ht hp]

theorem NonZero.derived (h : NonZero row) : NonZero (deriveTypes row) := by
  intro f v hv
  by_cases ht : f = .ethType
  · subst ht
    rcases deriveTypes_ethType row with htruthy | heq
    · obtain ⟨t, hrow, rfl⟩ := Option.map_eq_some_iff.mp hv
      simpa [hrow] using htruthy
    · exact h .ethType v (by rwa [column, ← heq])
  by_cases hp : f = .ipProto
  · subst hp
    rcases deriveTypes_ipProto row with htruthy | heq
    · obtain ⟨n, hrow, rfl⟩ := Option.map_eq_some_iff.mp hv
      simpa [hrow] using htruthy
    · exact h .ipProto v (by rwa [column, ← heq])
  · exact h f v (by rwa [← column_deriveTypes ht hp])

end Derived

/-- The packet has what the row requires, and the Ethernet type and the protocol that are
derived where the row leaves them open. -/
structure Agrees (row : FlowRow) (pkt : Packet) : Prop where
  legible : Legible row
  columns : column row ≤ pkt.fields
  ethType : ∀ t, (deriveTypes row).ethType = some t → pkt.ethType = t
  ipProto : ∀ n, (deriveTypes row).ipProto = some n → pkt.ipProto = some n

theorem agrees_iff (hlegible : Legible row) {pkt : Packet} :
    Agrees row pkt ↔ column row ≤ pkt.fields ∧ column (deriveTypes row) ≤ pkt.fields := by
  constructor
  · intro h
    refine ⟨h.columns, fun f v hv ↦ ?_⟩
    by_cases ht : f = .ethType
    · subst ht
      obtain ⟨t, hrow, rfl⟩ := Option.map_eq_some_iff.mp hv
      simp [Packet.fields, h.ethType t hrow]
    by_cases hp : f = .ipProto
    · subst hp
      obtain ⟨n, hrow, rfl⟩ := Option.map_eq_some_iff.mp hv
      simp [Packet.fields, h.ipProto n hrow]
    · exact h.columns f v (by rwa [← column_deriveTypes ht hp])
  · rintro ⟨hcol, hder⟩
    refine ⟨hlegible, hcol, fun t ht ↦ ?_, fun n hn ↦ ?_⟩
    · simpa [Packet.fields] using hder .ethType (.int t) (by simp [column, ht])
    · simpa [Packet.fields] using hder .ipProto (.int n) (by simp [column, hn])

section Probe

def intOr : Option Value → Int
  | some (.int n) => n
  | _ => 1

def textOr : Option Value → String
  | some (.str s) => s
  | _ => "-"

theorem intOr_ne_zero (o : Option Value) : intOr (o.filter truthy) ≠ 0 := by
  rcases o with _ | n | s
  · decide
  · by_cases hn : n = 0 <;> simp [intOr, Option.filter, hn]
  · by_cases hs : s = "" <;> simp [intOr, Option.filter, hs]

theorem textOr_ne_empty (o : Option Value) : textOr (o.filter truthy) ≠ "" := by
  rcases o with _ | n | s
  · decide
  · by_cases hn : n = 0 <;> simp [textOr, Option.filter, hn]
  · by_cases hs : s = "" <;> simp [textOr, Option.filter, hs]

def probe (m : FieldMatch) : Packet where
  ethSrc := textOr (m .ethSrc)
  ethDst := textOr (m .ethDst)
  ethType := intOr (m .ethType)
  ipv4 := some ⟨intOr (m .ipv4Src), intOr (m .ipv4Dst)⟩
  ipProto := some (intOr (m .ipProto))
  tcp := some (intOr (m .tcpSrc), intOr (m .tcpDst))
  udp := some (intOr (m .udpSrc), intOr (m .udpDst))
  ipv6 := some (textOr (m .ipv6Src), textOr (m .ipv6Dst))
  registration := none
  ipv4_header := fun _ ↦ rfl

theorem le_probe (h : matchAdd row = .ok m) :
    OFPMatch.fields m ≤ (probe (OFPMatch.fields m)).fields := by
  intro f v hv
  rw [matchAdd_fields h, Option.filter_eq_some_iff] at hv
  obtain ⟨hv, htruthy⟩ := hv
  have hm : OFPMatch.fields m f = some v := by
    rw [matchAdd_fields h, hv, Option.filter_some_pos htruthy]
  cases f with
  | inPort | nshSpi | nshSi => cases hv
  | ethSrc | ethDst | ipv6Src | ipv6Dst =>
    obtain ⟨x, -, rfl⟩ := Option.map_eq_some_iff.mp hv
    simp [Packet.fields, probe, hm, textOr]
  | ethType | ipProto | tcpSrc | tcpDst | udpSrc | udpDst | ipv4Src | ipv4Dst =>
    obtain ⟨x, -, rfl⟩ := Option.map_eq_some_iff.mp hv
    simp [Packet.fields, probe, hm, intOr]

theorem probe_truthy (h : matchAdd row = .ok m) {f : Field} {v : Value}
    (hv : (probe (OFPMatch.fields m)).fields f = some v) : truthy v := by
  have hint : ∀ g, intOr (OFPMatch.fields m g) ≠ 0 := by
    intro g
    rw [matchAdd_fields h]
    exact intOr_ne_zero _
  have htext : ∀ g, textOr (OFPMatch.fields m g) ≠ "" := by
    intro g
    rw [matchAdd_fields h]
    exact textOr_ne_empty _
  cases f <;> simp only [Packet.fields, probe, Option.map_some, Option.some.injEq] at hv <;>
    first | (subst hv; simp [hint, htext]) | cases hv

end Probe

section Accepts

variable {e : OFPMatch} {p : Int} {pkt : Packet}

theorem entryPoint_le_iff (hm : matchAdd row = .ok m) (he : matchEntryPoint p row = .ok e) :
    OFPMatch.fields e ≤ (Frame.plain pkt).header p ↔ OFPMatch.fields m ≤ pkt.fields := by
  have hport := matchCommon_inPort hm
  rw [matchEntryPoint_fields hm he]
  constructor
  · intro h
    exact (le_header_of_inPort_none p (.plain pkt) hport).mp (Match.le_of_set_le hport h)
  · intro h
    exact Match.set_le_set h _ fun _ hv ↦ given_eq_some hv

theorem NonZero.accepts (h : NonZero row) (hs : Given row.ipv4Src) (hd : Given row.ipv4Dst)
    (hm : matchAdd (deriveTypes row) = .ok m) : OFPMatch.fields m ≤ pkt.fields ↔ Agrees row pkt := by
  have hfields : OFPMatch.fields m = column (deriveTypes row) := by
    funext f
    have htaken : column (deriveTypes row) = taken (deriveTypes row) := column_eq_taken hs hd
    rw [matchAdd_fields hm, ← htaken]
    cases hc : column (deriveTypes row) f with
    | none => rfl
    | some v => exact Option.filter_some_pos (h.derived f v hc)
  rw [hfields, agrees_iff (hs.legible hd)]
  exact ⟨fun hle ↦ ⟨h.column_le.trans hle, hle⟩, fun hle ↦ hle.2⟩

theorem nonZero_of_accepts (hm : matchAdd (deriveTypes row) = .ok m)
    (h : ∀ pkt : Packet, OFPMatch.fields m ≤ pkt.fields ↔ Agrees row pkt) : NonZero row := by
  intro f v hv
  have hagrees := (h _).mp (le_probe hm)
  exact probe_truthy hm (hagrees.columns f v hv)

/-- The matches of the flow in table 0 can be built, and accept the packets that agree with its row. -/
def Faithful (row : FlowRow) (p : Int) : Prop :=
  ∃ m e, matchAdd (deriveTypes row) = .ok m ∧ matchEntryPoint p (deriveTypes row) = .ok e ∧
    ∀ pkt : Packet, (OFPMatch.fields m ≤ pkt.fields ↔ Agrees row pkt) ∧
      (OFPMatch.fields e ≤ (Frame.plain pkt).header p ↔ Agrees row pkt)

/-- A row with both IPv4 addresses is matched faithfully exactly if no column is zero or empty. -/
theorem faithful_iff (hs : Given row.ipv4Src) (hd : Given row.ipv4Dst) (p : Int) :
    Faithful row p ↔ NonZero row := by
  constructor
  · rintro ⟨m, e, hm, -, h⟩
    exact nonZero_of_accepts hm fun pkt ↦ (h pkt).1
  · intro h
    obtain ⟨m, hm⟩ := exists_matchAdd hs hd
    obtain ⟨e, he⟩ : ∃ e, matchEntryPoint p (deriveTypes row) = .ok e := flowMatch_ok_of_ok hm _
    refine ⟨m, e, hm, he, fun pkt ↦ ?_⟩
    rw [entryPoint_le_iff hm he]
    exact ⟨h.accepts hs hd hm, h.accepts hs hd hm⟩

theorem flow3_nonZero : NonZero Demo.flow3 := by
  intro f v hv
  cases f <;> revert v <;> decide +kernel

theorem flow3_faithful : Faithful Demo.flow3 1 :=
  (faithful_iff ⟨"10.0.0.4", 0x0A000004, rfl, by decide⟩ ⟨"10.0.0.5", 0x0A000005, rfl, by decide⟩ 1).mpr
    flow3_nonZero

/-- A row for the source address 0.0.0.0 accepts packets from any address. -/
theorem zero_address_accepts : ∃ m, matchAdd (deriveTypes (Demo.flow 1 "0.0.0.0" "10.0.0.5" 6)) = .ok m ∧
    OFPMatch.fields m ≤ Demo.packet.fields ∧
      ¬ Agrees (Demo.flow 1 "0.0.0.0" "10.0.0.5" 6) Demo.packet := by
  refine ⟨.appended [(.ethType, .int 0x0800), (.ipv4Dst, .int 0x0A000005)], ?_, by decide, ?_⟩
  · exact flowMatch_ok.mpr ⟨0, 0x0A000005, by decide, by decide, by decide⟩
  · intro h
    exact absurd (h.columns .ipv4Src (.int 0) (by decide)) (by decide)

end Accepts

section Add

variable {app : SfcApp} {db : Db}

structure Contains (row : FlowRow) (m : OFPMatch) : Prop where
  legible : Legible row
  columns : column row ≤ OFPMatch.fields m

/-- `api_add_flow` ends normally, and every connected switch gets one detection entry for the
flow, with the columns that are set in its match. -/
structure Added (app : SfcApp) (db : Db) (row : FlowRow) : Prop where
  result : (apiAddFlow app db row.id).result = .ok 200
  sent : List.Forall₂ (fun dp n ↦ ∃ m, Contains row m ∧
    n = (dp, .add 0 8 m (detectionInst row.id))) app.datapaths (apiAddFlow app db row.id).sent
  installed : ∀ T : Network, ∀ dp ∈ app.datapaths, ∃ m, Contains row m ∧
    T.receive (apiAddFlow app db row.id).sent dp.id ⟨0, 8, OFPMatch.fields m⟩ =
      some (detectionInst row.id)

def ProperAddress (o : Option String) : Prop := ∃ s n, o = some s ∧ address s = some n ∧ n ≠ 0

def InRange (o : Option Int) (bound : Int) : Prop := ∀ n, o = some n → 0 < n ∧ n < bound

/-- Both IPv4 addresses are given, the numbers that are set have their fields' widths and are not zero,
and no other address is set. -/
structure Addable (row : FlowRow) : Prop where
  id : 0 ≤ row.id
  ipv4Src : ProperAddress row.ipv4Src
  ipv4Dst : ProperAddress row.ipv4Dst
  ethType : InRange row.ethType 0x10000
  ipProto : InRange row.ipProto 0x100
  ports : ∀ o ∈ [row.tcpSrc, row.tcpDst, row.udpSrc, row.udpDst], InRange o 0x10000
  eth : row.ethSrc = none ∧ row.ethDst = none
  ipv6 : row.ipv6Src = none ∧ row.ipv6Dst = none

theorem ProperAddress.given {o : Option String} (h : ProperAddress o) : Given o := by
  obtain ⟨s, n, hs, hn, -⟩ := h
  exact ⟨s, n, hs, hn⟩

theorem ProperAddress.column {o : Option String} (h : ProperAddress o) {v : Value}
    (hv : (o.bind address).map Value.int = some v) : ∃ n, v = .int n ∧ 0 < n ∧ n < 2 ^ 32 := by
  obtain ⟨s, n, rfl, hn, h0⟩ := h
  rw [Option.bind_some, hn] at hv
  obtain ⟨hnonneg, hlt⟩ := address_lt hn
  exact ⟨n, (Option.some.inj hv).symm, by omega, hlt⟩

theorem InRange.column {o : Option Int} {bound : Int} (h : InRange o bound) {v : Value}
    (hv : o.map Value.int = some v) : ∃ n, v = .int n ∧ 0 < n ∧ n < bound := by
  obtain ⟨n, hn, rfl⟩ := Option.map_eq_some_iff.mp hv
  exact ⟨n, rfl, h n hn⟩

theorem Addable.derived (h : Addable row) : Addable (deriveTypes row) where
  id := h.id
  ipv4Src := h.ipv4Src
  ipv4Dst := h.ipv4Dst
  ethType := by
    intro t ht
    simp only [deriveTypes] at ht
    split_ifs at ht
    · exact h.ethType t ht
    · obtain rfl := Option.some.inj ht
      decide
    · obtain rfl := Option.some.inj ht
      decide
    · exact h.ethType t ht
  ipProto := by
    intro n hn
    simp only [deriveTypes] at hn
    split_ifs at hn
    · exact h.ipProto n hn
    · obtain rfl := Option.some.inj hn
      decide
    · obtain rfl := Option.some.inj hn
      decide
    · exact h.ipProto n hn
  ports := h.ports
  eth := h.eth
  ipv6 := h.ipv6

theorem Addable.packs (h : Addable row) {f : Field} {v : Value} (hv : column row f = some v) :
    f.packs v ∧ truthy v := by
  have hports := h.ports
  simp only [List.forall_mem_cons, List.not_mem_nil, false_imp_iff, implies_true, and_true] at hports
  obtain ⟨htcp, htcp', hudp, hudp'⟩ := hports
  have hint : ∀ {n bound : Int}, 0 < n ∧ n < bound → bound ≤ f.limit →
      f.packs (.int n) ∧ truthy (Value.int n) := by
    intro n bound hn hb
    refine ⟨?_, by simpa using hn.1.ne'⟩
    simp only [Field.packs, decide_eq_true_eq]
    exact .inr ⟨hn.1.le, by omega⟩
  cases f with
  | inPort | nshSpi | nshSi => cases hv
  | ethSrc => simp [column, h.eth.1] at hv
  | ethDst => simp [column, h.eth.2] at hv
  | ipv6Src => simp [column, h.ipv6.1] at hv
  | ipv6Dst => simp [column, h.ipv6.2] at hv
  | ipv4Src =>
    obtain ⟨n, rfl, hn⟩ := h.ipv4Src.column hv
    exact hint hn (by decide)
  | ipv4Dst =>
    obtain ⟨n, rfl, hn⟩ := h.ipv4Dst.column hv
    exact hint hn (by decide)
  | ethType =>
    obtain ⟨n, rfl, hn⟩ := h.ethType.column hv
    exact hint hn (by decide)
  | ipProto =>
    obtain ⟨n, rfl, hn⟩ := h.ipProto.column hv
    exact hint hn (by decide)
  | tcpSrc =>
    obtain ⟨n, rfl, hn⟩ := htcp.column hv
    exact hint hn (by decide)
  | tcpDst =>
    obtain ⟨n, rfl, hn⟩ := htcp'.column hv
    exact hint hn (by decide)
  | udpSrc =>
    obtain ⟨n, rfl, hn⟩ := hudp.column hv
    exact hint hn (by decide)
  | udpDst =>
    obtain ⟨n, rfl, hn⟩ := hudp'.column hv
    exact hint hn (by decide)

theorem matchAdd_packs_iff (hm : matchAdd row = .ok m) :
    m.packs ↔ ∀ f v, OFPMatch.fields m f = some v → f.packs v := by
  constructor
  · intro h f v hv
    rw [matchAdd_eq hm, createMatch_packs] at h
    rw [matchAdd_fields hm, Option.filter_eq_some_iff] at hv
    refine h f v (List.mem_map.mpr ⟨f, ?_, by rw [hv.1]⟩) hv.2
    by_contra hf
    simp [taken_of_not_mem hf] at hv
  · intro h
    rw [matchAdd_eq hm, createMatch_packs]
    intro f v hmem hv
    obtain ⟨g, -, heq⟩ := List.mem_map.mp hmem
    obtain ⟨rfl, htaken⟩ := Prod.mk.inj heq
    exact h g v (by rw [matchAdd_fields hm, htaken, Option.filter_some_pos hv])

theorem added_of_no_switch (hrow : row ∈ db.flows) (hdps : app.datapaths = []) :
    Added app db row := by
  have hadd : apiAddFlow app db row.id = ⟨[], .ok 200⟩ := by
    simp only [apiAddFlow, Db.selectFlows_eq_singleton hrow, forEach_cons, hdps]
    rfl
  refine ⟨by rw [hadd], ?_, ?_⟩
  · rw [hadd, hdps]
    exact .nil
  · simp [hdps]

theorem Addable.added (h : Addable row) (hrow : row ∈ db.flows) : Added app db row := by
  have hs := h.ipv4Src.given
  have hd := h.ipv4Dst.given
  obtain ⟨m, hm⟩ := exists_matchAdd hs hd
  have hfields : ∀ f, OFPMatch.fields m f = (column (deriveTypes row) f).filter truthy := by
    intro f
    have htaken : column (deriveTypes row) = taken (deriveTypes row) := column_eq_taken hs hd
    rw [matchAdd_fields hm, htaken]
  have hnz : NonZero row := fun f v hv ↦ (h.packs hv).2
  have hcontains : Contains row m := by
    refine ⟨hs.legible hd, fun f v hv ↦ ?_⟩
    rw [hfields, hnz.column_le f v hv]
    exact Option.filter_some_pos (hnz f v hv)
  have hpacks : m.packs := by
    rw [matchAdd_packs_iff hm]
    intro f v hv
    rw [hfields, Option.filter_eq_some_iff] at hv
    exact (h.derived.packs hv.1).1
  have hadd : apiAddFlow app db row.id = _ :=
    apiAddFlow_eq (Db.mem_selectFlows.mpr ⟨hrow, rfl⟩) hm hpacks h.id
  refine ⟨by rw [hadd], ?_, fun T dp hdp ↦ ⟨m, hcontains, ?_⟩⟩
  · rw [hadd, List.forall₂_map_right_iff, List.forall₂_same]
    exact fun dp _ ↦ ⟨m, hcontains, rfl⟩
  · rw [hadd]
    refine receive_added (List.mem_map.mpr ⟨dp, hdp, rfl⟩) rfl rfl ?_ T
    intro n hn _ _
    obtain ⟨dp', -, rfl⟩ := List.mem_map.mp hn
    rfl

theorem addable_of_contains (hid : 0 ≤ row.id) (hm : matchAdd (deriveTypes row) = .ok m)
    (hp : m.packs) (h : Contains row m) : Addable row := by
  have hpacks : ∀ f v, column row f = some v → f.packs v ∧ truthy v := by
    intro f v hv
    have hfield := h.columns f v hv
    have htaken := hfield
    rw [matchAdd_fields hm, Option.filter_eq_some_iff] at htaken
    exact ⟨(matchAdd_packs_iff hm).mp hp f v hfield, htaken.2⟩
  have hint : ∀ f o, column row f = o.map Value.int → f ≠ .inPort → InRange o f.limit := by
    rintro f o hf hport n rfl
    obtain ⟨hn, h0⟩ := hpacks f (.int n) hf
    have h0 : n ≠ 0 := by simpa using h0
    have hn : 0 ≤ n ∧ n < f.limit := by simpa [Field.packs, hport] using hn
    omega
  have htext : ∀ f o, column row f = o.map Value.str → o = none := by
    intro f o hf
    cases o with
    | none => rfl
    | some s => exact absurd (hpacks f (.str s) hf).1 Bool.false_ne_true
  have haddress : ∀ f o, Given o → column row f = (o.bind address).map Value.int →
      ProperAddress o := by
    rintro f o ⟨s, n, rfl, hn⟩ hf
    rw [Option.bind_some, hn] at hf
    exact ⟨s, n, rfl, hn, by simpa using (hpacks f (.int n) hf).2⟩
  obtain ⟨src, dst, hs, hd, -⟩ := flowMatch_ok.mp hm
  obtain ⟨hs, hd⟩ := h.legible.given hs hd
  refine
    { id := hid
      ipv4Src := haddress .ipv4Src row.ipv4Src hs rfl
      ipv4Dst := haddress .ipv4Dst row.ipv4Dst hd rfl
      ethType := hint .ethType row.ethType rfl (by decide)
      ipProto := hint .ipProto row.ipProto rfl (by decide)
      ports := ?_
      eth := ⟨htext .ethSrc _ rfl, htext .ethDst _ rfl⟩
      ipv6 := ⟨htext .ipv6Src _ rfl, htext .ipv6Dst _ rfl⟩ }
  simp only [List.forall_mem_cons, List.not_mem_nil, false_imp_iff, implies_true, and_true]
  exact ⟨hint .tcpSrc row.tcpSrc rfl (by decide), hint .tcpDst row.tcpDst rfl (by decide),
    hint .udpSrc row.udpSrc rfl (by decide), hint .udpDst row.udpDst rfl (by decide)⟩

theorem Added.addable (h : Added app db row) (hrow : row ∈ db.flows) {dp : Datapath}
    (hdp : dp ∈ app.datapaths) : Addable row := by
  obtain ⟨m, hcontains, hT⟩ := h.installed (fun _ _ ↦ none) dp hdp
  rcases receive_eq_some hT with ⟨n, hn, -, hadd⟩ | ⟨hnone, -⟩
  swap
  · cases hnone
  obtain ⟨r, hr, hrule⟩ := apiAddFlow_sent hn
  obtain ⟨hr, hid⟩ := Db.mem_selectFlows.mp hr
  obtain rfl : r = row := List.inj_on_of_nodup_map db.flows_id hr hrow hid
  cases hrule with
  | @detection dp' hdp' m' hm hp hnonneg =>
    have hfields : OFPMatch.fields m' = OFPMatch.fields m :=
      congrArg Key.fields (Mod.add.inj hadd).1
    exact addable_of_contains hnonneg hm hp ⟨hcontains.legible, hfields ▸ hcontains.columns⟩

def ipv6Flow : FlowRow :=
  { Demo.flow1 with ipv4Src := none, ipv4Dst := none, ipv6Src := some "fd00::4", ipv6Dst := some "fd00::5" }

def ipv6Db : Db where
  flows := [ipv6Flow]
  flows_id := by decide
  service := Demo.db.service
  vnf := Demo.db.vnf

end Add

end NshSfc.Columns
