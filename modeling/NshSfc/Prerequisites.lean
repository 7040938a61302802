import NshSfc.Columns

namespace NshSfc.Prerequisites

open Library Library.Script Python Database OpenFlow RowMatch App Columns

variable {row : FlowRow} {m : OFPMatch} {f g : Field} {w : Value}

/-- Wherever field `f` stands in the match, field `g` stands before it with value `w`. -/
def Preceded (m : OFPMatch) (g : Field) (w : Value) (f : Field) : Prop :=
  ∀ before v after, m.list = before ++ (f, v) :: after → (g, w) ∈ before

/-- What OpenFlow requires of a match with ports or IPv4 addresses. -/
structure Admissible (m : OFPMatch) : Prop where
  tcp : ∀ f ∈ [Field.tcpSrc, Field.tcpDst], Preceded m .ipProto (.int 6) f
  udp : ∀ f ∈ [Field.udpSrc, Field.udpDst], Preceded m .ipProto (.int 17) f
  ipv4 : ∀ f ∈ [Field.ipv4Src, Field.ipv4Dst], Preceded m .ethType (.int 0x0800) f

inductive Built (row : FlowRow) : OFPMatch → Prop
  | add {m : OFPMatch} (h : matchAdd row = .ok m) : Built row m
  | del {m : OFPMatch} (h : matchDel row = .ok m) : Built row m
  | common {m : OFPMatch} (h : matchCommon row = .ok m) : Built row m
  | entryPoint (p : Int) {m : OFPMatch} (h : matchEntryPoint p row = .ok m) : Built row m
  | middle (p : Option Int) {m : OFPMatch} (h : matchMiddle p row = .ok m) : Built row m

/-- The row does not contradict itself: a given Ethernet type is that of IPv4, a given protocol is
that of the given ports, and ports of one protocol at most are given. -/
structure Consistent (row : FlowRow) : Prop where
  ethType : ∀ t, row.ethType = some t → t = 0x0800
  tcp : row.tcpSrc.isSome ∨ row.tcpDst.isSome → ∀ n, row.ipProto = some n → n = 6
  udp : row.udpSrc.isSome ∨ row.udpDst.isSome → ∀ n, row.ipProto = some n → n = 17
  transport : (row.tcpSrc = none ∧ row.tcpDst = none) ∨ (row.udpSrc = none ∧ row.udpDst = none)

theorem mem_createMatch {fs : List (Field × Option Value)} {v : Value} :
    (f, v) ∈ (createMatch fs).list ↔ (f, some v) ∈ fs ∧ truthy v := by
  simp only [createMatch, OFPMatch.list, List.mem_filterMap]
  constructor
  · rintro ⟨⟨g, o⟩, hmem, heq⟩
    cases o with
    | none => cases heq
    | some u =>
      by_cases hu : truthy u
      · obtain ⟨rfl, rfl⟩ : g = f ∧ u = v := by simpa [hu] using heq
        exact ⟨hmem, hu⟩
      · simp [hu] at heq
  · rintro ⟨hmem, hv⟩
    exact ⟨(f, some v), hmem, by simp [hv]⟩

theorem preceded_of_absent (h : ∀ v, (f, v) ∉ m.list) : Preceded m g w f := by
  intro before v after heq
  exact absurd (by simp [heq]) (h v)

theorem preceded_append {before after : List (Field × Option Value)} (hw : (g, some w) ∈ before)
    (h0 : truthy w) (hf : ∀ v, (f, v) ∉ before) :
    Preceded (createMatch (before ++ after)) g w f := by
  have hw : (g, w) ∈ (createMatch before).list := mem_createMatch.mpr ⟨hw, h0⟩
  have hf : ∀ v, (f, v) ∉ (createMatch before).list :=
    fun v hv ↦ hf _ (mem_createMatch.mp hv).1
  have hsplit : (createMatch (before ++ after)).list =
      (createMatch before).list ++ (createMatch after).list := List.filterMap_append
  intro before' v after' heq
  rw [hsplit] at heq
  rcases List.append_eq_append_iff.mp heq with ⟨c, hbefore, -⟩ | ⟨c, hbefore, hc⟩
  · rw [hbefore]
    exact List.mem_append_left _ hw
  · cases c with
    | nil => simpa [hbefore] using hw
    | cons x c =>
      obtain ⟨rfl, -⟩ := List.cons.inj hc
      exact absurd (by simp [hbefore]) (hf v)

section Built

theorem Built.flowMatch (h : Built row m) : ∃ leading : List (Field × Option Value),
    (∀ a ∈ leading, a.1 = .inPort ∨ a.1 = .ethSrc ∨ a.1 = .ethDst) ∧ flowMatch leading row = .ok m := by
  cases h with
  | add h | del h | common h => exact ⟨_, by simp [ethFields], h⟩
  | entryPoint p h => exact ⟨_, by simp [ethFields], h⟩
  | middle p h => exact ⟨_, by simp, h⟩

theorem Built.mem (h : Built row m) {v : Value} (hv : (f, v) ∈ m.list) (hp : f ≠ .inPort)
    (hs : f ≠ .ethSrc) (hd : f ≠ .ethDst) : taken row f = some v ∧ truthy v := by
  obtain ⟨leading, hl, hm⟩ := h.flowMatch
  obtain rfl := flowMatch_eq hm
  obtain ⟨hmem, htruthy⟩ := mem_createMatch.mp hv
  refine ⟨?_, htruthy⟩
  rcases List.mem_append.mp hmem with hmem | hmem
  · rcases hl _ hmem with h | h | h <;> contradiction
  · obtain ⟨g, -, heq⟩ := List.mem_map.mp hmem
    obtain ⟨rfl, htaken⟩ := Prod.mk.inj heq
    exact htaken

theorem Built.absent (h : Built row m) (hp : f ≠ .inPort) (hs : f ≠ .ethSrc) (hd : f ≠ .ethDst)
    (hf : ¬ truthy (taken row f)) (v : Value) : (f, v) ∉ m.list := by
  intro hv
  obtain ⟨hcol, htruthy⟩ := h.mem hv hp hs hd
  exact hf (by rwa [hcol])

theorem Built.port_preceded (h : Built row m) {n : Int} (hn : row.ipProto = some n) (h0 : n ≠ 0)
    (hf : f ∈ [Field.tcpSrc, .tcpDst, .udpSrc, .udpDst]) : Preceded m .ipProto (.int n) f := by
  obtain ⟨leading, hl, hm⟩ := h.flowMatch
  obtain ⟨src, dst, -, -, rfl⟩ := flowMatch_ok.mp hm
  have hsplit := List.append_assoc leading
    [(.ethType, row.ethType.map .int), (.ipv4Src, some (.int src)), (.ipv4Dst, some (.int dst)),
      (.ipProto, row.ipProto.map .int)]
    [(.tcpSrc, row.tcpSrc.map .int), (.tcpDst, row.tcpDst.map .int), (.udpSrc, row.udpSrc.map .int),
      (.udpDst, row.udpDst.map .int), (.ipv6Src, row.ipv6Src.map .str), (.ipv6Dst, row.ipv6Dst.map .str)]
  rw [List.cons_append, List.cons_append, List.cons_append, List.cons_append, List.nil_append] at hsplit
  rw [← hsplit]
  apply preceded_append
  · simp [hn]
  · simpa using h0
  · intro v hmem
    rcases List.mem_append.mp hmem with hmem | hmem
    · rcases hl _ hmem with h | h | h <;> subst h <;> simp at hf
    · simp only [List.mem_cons, List.not_mem_nil, or_false, Prod.mk.injEq] at hmem
      rcases hmem with ⟨rfl, -⟩ | ⟨rfl, -⟩ | ⟨rfl, -⟩ | ⟨rfl, -⟩ <;> simp at hf

theorem Built.port_preceded_of (h : Built row m) {n : Int} (h0 : n ≠ 0)
    (hf : f ∈ [Field.tcpSrc, .tcpDst, .udpSrc, .udpDst])
    (hn : truthy (taken row f) → row.ipProto = some n) : Preceded m .ipProto (.int n) f := by
  by_cases hc : truthy (taken row f)
  · exact h.port_preceded (hn hc) h0 hf
  · refine preceded_of_absent (h.absent ?_ ?_ ?_ hc) <;> rintro rfl <;> simp at hf

theorem Built.ipv4_preceded (h : Built row m) {t : Int} (ht : row.ethType = some t) (h0 : t ≠ 0)
    (hf : f ∈ [Field.ipv4Src, .ipv4Dst]) : Preceded m .ethType (.int t) f := by
  obtain ⟨leading, hl, hm⟩ := h.flowMatch
  obtain ⟨src, dst, -, -, rfl⟩ := flowMatch_ok.mp hm
  rw [List.append_cons]
  apply preceded_append
  · simp [ht]
  · simpa using h0
  · intro v hmem
    rcases List.mem_append.mp hmem with hmem | hmem
    · rcases hl _ hmem with h | h | h <;> subst h <;> simp at hf
    · obtain rfl : f = .ethType := (Prod.mk.inj (List.mem_singleton.mp hmem)).1
      simp at hf

end Built

section Derived

variable {src : Int}

theorem Consistent.derived_ethType (h : Consistent row) (hs : ipv4ToInt row.ipv4Src = .ok src) :
    (deriveTypes row).ethType = some 0x0800 := by
  have hsrc := truthy_of_ipv4ToInt hs
  cases ht : row.ethType with
  | none => simp [deriveTypes, ht, hsrc]
  | some t =>
    obtain rfl := h.ethType t ht
    simp [deriveTypes, ht]

theorem isSome_of_truthy {o : Option Int} (h : truthy o) : o.isSome := by
  cases o with
  | none => simp at h
  | some n => rfl

theorem Consistent.derived_tcp (h : Consistent row)
    (hports : truthy row.tcpSrc ∨ truthy row.tcpDst) : (deriveTypes row).ipProto = some 6 := by
  have hset := hports.imp isSome_of_truthy isSome_of_truthy
  cases hn : row.ipProto with
  | none => simp [deriveTypes, hn, hports]
  | some n =>
    obtain rfl := h.tcp hset n hn
    simp [deriveTypes, hn]

theorem Consistent.derived_udp (h : Consistent row)
    (hports : truthy row.udpSrc ∨ truthy row.udpDst)
    (hfound : truthy row.udpDst → truthy row.udpSrc ∨ truthy row.ipProto) :
    (deriveTypes row).ipProto = some 17 := by
  have hset := hports.imp isSome_of_truthy isSome_of_truthy
  obtain ⟨hsrc, hdst⟩ : row.tcpSrc = none ∧ row.tcpDst = none := by
    rcases h.transport with ht | ⟨hs, hd⟩
    · exact ht
    · simp [hs, hd] at hset
  cases hn : row.ipProto with
  | none =>
    have hudp : truthy row.udpSrc := by
      rcases hports with hs | hd
      · exact hs
      · simpa [hn] using hfound hd
    simp [deriveTypes, hn, hsrc, hdst, hudp]
  | some n =>
    obtain rfl := h.udp hset n hn
    simp [deriveTypes, hn]

end Derived

theorem truthy_map_int (o : Option Int) : truthy (o.map Value.int) = truthy o := by cases o <;> rfl

/-- The protocol of the ports is known: a UDP destination port does not stand alone. -/
def ProtocolKnown (row : FlowRow) : Prop :=
  truthy row.udpDst → truthy row.udpSrc ∨ truthy row.ipProto

theorem admissible_of_known {src : Int} (h : Consistent row) (hs : ipv4ToInt row.ipv4Src = .ok src)
    (hknown : ProtocolKnown row) (hm : Built (deriveTypes row) m) : Admissible m where
  tcp := by
    intro f hf
    simp only [List.mem_cons, List.not_mem_nil, or_false] at hf
    rcases hf with rfl | rfl
    · refine hm.port_preceded_of (by decide) (by decide) fun hc ↦ h.derived_tcp (.inl ?_)
      rwa [← truthy_map_int]
    · refine hm.port_preceded_of (by decide) (by decide) fun hc ↦ h.derived_tcp (.inr ?_)
      rwa [← truthy_map_int]
  udp := by
    intro f hf
    simp only [List.mem_cons, List.not_mem_nil, or_false] at hf
    rcases hf with rfl | rfl
    · refine hm.port_preceded_of (by decide) (by decide) fun hc ↦ h.derived_udp (.inl ?_) hknown
      rwa [← truthy_map_int]
    · refine hm.port_preceded_of (by decide) (by decide) fun hc ↦ h.derived_udp (.inr ?_) hknown
      rwa [← truthy_map_int]
  ipv4 := fun f hf ↦ hm.ipv4_preceded (h.derived_ethType hs) (by decide) hf

theorem known_of_admissible (h : Consistent row) (hm : matchAdd (deriveTypes row) = .ok m)
    (hadm : Admissible m) : ProtocolKnown row := by
  intro hdst
  by_contra hunknown
  obtain ⟨hsrc, hproto⟩ := not_or.mp hunknown
  obtain ⟨port, hport⟩ : ∃ n, row.udpDst = some n := by
    cases hd : row.udpDst with
    | none => simp [hd] at hdst
    | some n => exact ⟨n, rfl⟩
  have hnone : row.ipProto = none := by
    cases hn : row.ipProto with
    | none => rfl
    | some n =>
      obtain rfl := h.udp (.inr (by simp [hport])) n hn
      simp [hn] at hproto
  obtain ⟨htcp, htcp'⟩ : row.tcpSrc = none ∧ row.tcpDst = none := by
    rcases h.transport with ht | ⟨-, hd⟩
    · exact ht
    · rw [hport] at hd
      cases hd
  have hderived : (deriveTypes row).ipProto = none := by
    simp [deriveTypes, hnone, htcp, htcp', hsrc]
  have hmem : (Field.udpDst, Value.int port) ∈ m.list := by
    obtain ⟨src, dst, -, -, rfl⟩ := flowMatch_ok.mp hm
    have hdst : (deriveTypes row).udpDst = some port := hport
    have hne : port ≠ 0 := by simpa [hport] using ‹truthy row.udpDst›
    exact mem_createMatch.mpr ⟨by simp [hdst], by simpa using hne⟩
  obtain ⟨before, after, hlist⟩ := List.append_of_mem hmem
  have hbefore := hadm.udp .udpDst (by simp) before (.int port) after hlist
  have hin : (Field.ipProto, Value.int 17) ∈ m.list := hlist ▸ List.mem_append_left _ hbefore
  have hin := (Built.add hm).mem hin (by decide) (by decide) (by decide)
  simp [taken, column, hderived] at hin

/-- The switch accepts every match that is built from a consistent row, unless the row has a
UDP destination port and neither a UDP source port nor a protocol. -/
theorem admissible_iff {src dst : Int} (hs : ipv4ToInt row.ipv4Src = .ok src)
    (hd : ipv4ToInt row.ipv4Dst = .ok dst) (h : Consistent row) :
    (∀ m, Built (deriveTypes row) m → Admissible m) ↔ ProtocolKnown row := by
  constructor
  · intro hadm
    have hm : matchAdd (deriveTypes row) = .ok _ := flowMatch_ok.mpr ⟨src, dst, hs, hd, rfl⟩
    exact known_of_admissible h hm (hadm _ (.add hm))
  · intro hknown m hm
    exact admissible_of_known h hs hknown hm

theorem flow3_admissible :
    (∃ m, matchAdd (deriveTypes Demo.flow3) = .ok m ∧ Admissible m) ∧
    (∃ m, matchEntryPoint 1 (deriveTypes Demo.flow3) = .ok m ∧ Admissible m) ∧
    ∃ m, matchMiddle (some 3) (deriveTypes Demo.flow3) = .ok m ∧ Admissible m := by
  have hs : ipv4ToInt Demo.flow3.ipv4Src = .ok 0x0A000004 := by decide
  have hd : ipv4ToInt Demo.flow3.ipv4Dst = .ok 0x0A000005 := by decide
  have h : Consistent Demo.flow3 := ⟨by decide, by decide, by simp [Demo.flow3], by decide⟩
  have hknown : ProtocolKnown Demo.flow3 := by
    intro
    exact .inr (by decide)
  have hadm : ∀ m, Built (deriveTypes Demo.flow3) m → Admissible m :=
    (admissible_iff hs hd h).mpr hknown
  have hbuilt : ∀ leading, ∃ m, flowMatch leading (deriveTypes Demo.flow3) = .ok m :=
    fun _ ↦ ⟨_, flowMatch_ok.mpr ⟨_, _, hs, hd, rfl⟩⟩
  refine ⟨?_, ?_, ?_⟩
  · obtain ⟨m, hm⟩ := hbuilt (ethFields (deriveTypes Demo.flow3))
    exact ⟨m, hm, hadm m (.add hm)⟩
  · obtain ⟨m, hm⟩ := hbuilt ((.inPort, some (.int 1)) :: ethFields (deriveTypes Demo.flow3))
    exact ⟨m, hm, hadm m (.entryPoint 1 hm)⟩
  · obtain ⟨m, hm⟩ := hbuilt [(.inPort, some (.int 3))]
    exact ⟨m, hm, hadm m (.middle (some 3) hm)⟩

def udpPortFlow : FlowRow := { Demo.flow1 with udpDst := some 44444 }

theorem udpPort_not_admissible : Consistent udpPortFlow ∧ ∃ m,
    matchAdd (deriveTypes udpPortFlow) = .ok m ∧ ¬ Preceded m .ipProto (.int 17) .udpDst := by
  refine ⟨⟨?_, ?_, ?_, ?_⟩, _, flowMatch_ok.mpr ⟨0x0A000004, 0x0A000005, by decide, by decide, rfl⟩, ?_⟩
  · decide
  · decide
  · decide
  · decide
  · intro h
    have hin := h [(.ethType, .int 0x0800), (.ipv4Src, .int 0x0A000004), (.ipv4Dst, .int 0x0A000005)]
      (.int 44444) [] (by decide)
    exact absurd hin (by decide)

end NshSfc.Prerequisites
