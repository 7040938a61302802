import NshSfc.Agent

namespace NshSfc.Transit

open Library Python Agent

variable {line t : Text} {m : RegisterDict}

/-- `t` is what the agent reads of a datagram after the first delimiter. -/
def Arrives (line t : Text) : Prop :=
  t <+: line ++ delimiter ∧ encode (delimiter ++ t) =
    (encode (delimiter ++ (line ++ delimiter))).extract 0 bufferSize

theorem delimiter_size : (encode delimiter).size = 2 := by decide

theorem encode_size_le {t u : Text} (h : t <+: u) : (encode t).size ≤ (encode u).size := by
  obtain ⟨v, rfl⟩ := h
  rw [encode_append, ByteArray.size_append]
  omega

theorem delimiter_ne_nil : delimiter ≠ [] := by decide

theorem extract_of_size_le {data : ByteArray} (h : data.size ≤ bufferSize) :
    data.extract 0 bufferSize = data := by
  ext1
  rw [ByteArray.data_extract, Array.extract_eq_self_of_le h]

theorem prefix_of_extract {u : Text} (h : encode t = (encode u).extract 0 bufferSize) : t <+: u := by
  rcases Nat.le_total (encode u).size bufferSize with hsize | hsize
  · rw [extract_of_size_le hsize] at h
    have hall : encode t ++ ByteArray.empty = encode u := by rw [h, ByteArray.append_empty]
    exact prefix_of_encode hall
  · have hall : encode t ++ (encode u).extract bufferSize (encode u).size = encode u := by
      rw [h, ← ByteArray.extract_eq_extract_append_extract bufferSize (Nat.zero_le _) hsize,
        ByteArray.extract_zero_size]
    exact prefix_of_encode hall

theorem heard_iff_arrives : Heard (encode (delimiter ++ (line ++ delimiter))) m ↔
    ∃ t, Arrives line t ∧ Parses (upTo delimiter t) m := by
  constructor
  · rintro ⟨t, c, ht, hc, hm⟩
    have hdata := (encode_of_decode ht).symm
    have hpre := prefix_of_extract hdata
    obtain ⟨t', rfl⟩ : delimiter <+: t := by
      rcases List.prefix_or_prefix_of_prefix hpre (List.prefix_append delimiter _) with hle | hle
      · have hsize := encode_size_le hle
        rw [hdata, ByteArray.size_extract, delimiter_size] at hsize
        simp only [encode_append, ByteArray.size_append, delimiter_size, bufferSize] at hsize
        omega
      · exact hle
    rw [splitText_second delimiter_ne_nil] at hc
    obtain rfl := Option.some.inj hc
    exact ⟨t', ⟨(List.prefix_append_right_inj delimiter).mp hpre, hdata⟩, hm⟩
  · rintro ⟨t, ⟨-, hdata⟩, hm⟩
    refine ⟨delimiter ++ t, _, ?_, splitText_second delimiter_ne_nil t, hm⟩
    rw [← hdata, decode_encode]
    rfl

/-- The end of the message may be lost to the buffer, but not a part of a field. -/
def Fits (line : Text) : Prop :=
  (encode (delimiter ++ (line ++ delimiter))).size ≤ bufferSize ∨
    (encode (delimiter ++ (line ++ delimiter))).size = bufferSize + 2

theorem Arrives.unique {t' : Text} (h : Arrives line t) (h' : Arrives line t') : t = t' := by
  have heq : decode (encode (delimiter ++ t)) = decode (encode (delimiter ++ t')) := by
    rw [h.2, h'.2]
  rw [decode_encode, decode_encode] at heq
  have hok := congrArg Script.result heq
  exact List.append_cancel_left (Except.ok.inj hok)

theorem exists_arrives (hd : ¬ delimiter <:+: line) (hlast : line.getLast? ≠ some '$')
    (hfits : Fits line) : ∃ t, Arrives line t ∧ upTo delimiter t = line := by
  rcases hfits with hsize | hsize
  · refine ⟨line ++ delimiter, ⟨List.prefix_refl _, ?_⟩, ?_⟩
    · rw [extract_of_size_le hsize]
    · have hup := upTo_double hd hlast []
      rwa [List.append_nil] at hup
  · refine ⟨line, ⟨List.prefix_append line delimiter, ?_⟩, upTo_eq_self hd⟩
    rw [← List.append_assoc, encode_append (delimiter ++ line)] at hsize ⊢
    rw [ByteArray.size_append, delimiter_size] at hsize
    rw [ByteArray.extract_append_eq_left]
    omega

theorem fits_of_arrives (h : Arrives line t) (hup : upTo delimiter t = line) :
    ¬ delimiter <:+: line ∧ Fits line := by
  have hd : ¬ delimiter <:+: line := hup ▸ not_infix_upTo delimiter_ne_nil t
  refine ⟨hd, ?_⟩
  obtain ⟨hpre, hdata⟩ := h
  obtain ⟨r, hr, hend⟩ := exists_upTo_append delimiter t
  rw [hup] at hr
  subst hr
  have hsize := congrArg ByteArray.size hdata
  rw [ByteArray.size_extract] at hsize
  have hr : r <+: delimiter := (List.prefix_append_right_inj line).mp hpre
  simp only [encode_append, ByteArray.size_append, delimiter_size] at hsize
  simp only [Fits, encode_append, ByteArray.size_append, delimiter_size]
  rcases hend with rfl | hle
  · have hzero : (encode []).size = 0 := by decide
    omega
  · rw [hr.eq_of_length (hr.length_le.antisymm hle.length_le), delimiter_size] at hsize
    omega

theorem obidirectional_eq_ok {s b : Text} : obidirectional s = .ok b ↔ ∃ n, intOfString s = .ok n ∧
    ((n = 1 ∨ n = 2) ∧ b = "False".toList ∨ n = 3 ∧ b = "True".toList) := by
  unfold obidirectional
  cases hn : intOfString s with
  | error e => simp [bind, Except.bind]
  | ok n =>
    by_cases h12 : n = 1 ∨ n = 2
    · have h3 : n ≠ 3 := by omega
      simp [bind, Except.bind, h12, h3, eq_comm]
    · by_cases h3 : n = 3
      · simp [bind, Except.bind, h3, eq_comm]
      · simp [bind, Except.bind, h12, h3]

theorem dollar_not_last {s : Text} {n : Int} (h : intOfString s = .ok n) : s.getLast? ≠ some '$' := by
  intro hlast
  rcases intOfString_last h hlast with hspace | hdigit
  · exact absurd hspace (by decide)
  · exact absurd hdigit (by decide)

section Fields

variable {name vnfId typeId groupId iftype command : Text}

def CommaFree (name vnfId typeId groupId iftype : Text) : Prop :=
  ∀ f ∈ [name, vnfId, typeId, groupId, iftype], ',' ∉ f

theorem fieldsLine_getLast (hlast : iftype.getLast? ≠ some '$') :
    (fieldsLine name vnfId typeId groupId iftype).getLast? ≠ some '$' := by
  have hline : fieldsLine name vnfId typeId groupId iftype =
      (name ++ ',' :: vnfId ++ ',' :: typeId ++ ',' :: groupId) ++ ',' :: iftype := by
    simp [fieldsLine, List.intercalate_cons_cons]
  rw [hline, List.getLast?_append_of_ne_nil _ (by simp)]
  cases iftype with
  | nil => simp
  | cons c iftype => simpa using hlast

theorem splitOn_fieldsLine (h : CommaFree name vnfId typeId groupId iftype) :
    (fieldsLine name vnfId typeId groupId iftype).splitOn ',' = [name, vnfId, typeId, groupId, iftype] :=
  List.splitOn_intercalate ',' h (by simp)

theorem fieldsLine_of_splitOn {more : List Text}
    (hf : command.splitOn ',' = [name, vnfId, typeId, groupId, iftype] ++ more)
    (hpre : command <+: fieldsLine name vnfId typeId groupId iftype ++ delimiter) :
    command = fieldsLine name vnfId typeId groupId iftype := by
  have hcommand : [','].intercalate (command.splitOn ',') = command := List.intercalate_splitOn ','
  rw [hf] at hcommand
  cases more with
  | nil => exact hcommand.symm
  | cons f more =>
    exfalso
    have hline : command = fieldsLine name vnfId typeId groupId iftype ++
        ',' :: [','].intercalate (f :: more) := by
      rw [← hcommand]
      simp [fieldsLine, List.intercalate_cons_cons]
    rw [hline, List.prefix_append_right_inj] at hpre
    simp [delimiter] at hpre

theorem commaFree_of_splitOn {more : List Text}
    (hf : command.splitOn ',' = [name, vnfId, typeId, groupId, iftype] ++ more) :
    CommaFree name vnfId typeId groupId iftype := by
  intro f hmem
  exact not_mem_of_mem_splitOn (hf ▸ List.mem_append_left more hmem)

/-- The fields come through when no delimiter is in the way. -/
structure Clean (name vnfId typeId groupId iftype : Text) : Prop where
  comma : CommaFree name vnfId typeId groupId iftype
  delimiter : ¬ delimiter <:+: fieldsLine name vnfId typeId groupId iftype
  last : iftype.getLast? ≠ some '$'
  fits : Fits (fieldsLine name vnfId typeId groupId iftype)

variable {bidirectional : Text}

theorem clean_of_heard
    (h : Heard (encode (comMsg name vnfId typeId groupId iftype))
      ⟨vnfId, name, typeId, groupId, ogeoLocation, iftype, bidirectional⟩) :
    Clean name vnfId typeId groupId iftype ∧ obidirectional iftype = .ok bidirectional := by
  obtain ⟨t, harr, ⟨more, hf⟩, hb, -⟩ := heard_iff_arrives.mp h
  obtain ⟨r, hr, -⟩ := exists_upTo_append delimiter t
  have hpre : upTo delimiter t <+: t := ⟨r, hr.symm⟩
  have hup := fieldsLine_of_splitOn hf (hpre.trans harr.1)
  obtain ⟨hd, hfits⟩ := fits_of_arrives harr hup
  obtain ⟨n, hn, -⟩ := obidirectional_eq_ok.mp hb
  exact ⟨⟨commaFree_of_splitOn hf, hd, dollar_not_last hn, hfits⟩, hb⟩

theorem heard_of_clean (h : Clean name vnfId typeId groupId iftype)
    (hb : obidirectional iftype = .ok bidirectional) :
    Heard (encode (comMsg name vnfId typeId groupId iftype))
      ⟨vnfId, name, typeId, groupId, ogeoLocation, iftype, bidirectional⟩ := by
  obtain ⟨t, harr, hup⟩ := exists_arrives h.delimiter (fieldsLine_getLast h.last) h.fits
  refine heard_iff_arrives.mpr ⟨t, harr, ⟨[], ?_⟩, hb, rfl⟩
  rw [hup, splitOn_fieldsLine h.comma, List.append_nil]

theorem Clean.heard_eq (h : Clean name vnfId typeId groupId iftype) {m : RegisterDict}
    (hm : Heard (encode (comMsg name vnfId typeId groupId iftype)) m) :
    m = ⟨vnfId, name, typeId, groupId, ogeoLocation, iftype, m.bidirectional⟩ ∧
      obidirectional iftype = .ok m.bidirectional := by
  obtain ⟨t, harr, hup⟩ := exists_arrives h.delimiter (fieldsLine_getLast h.last) h.fits
  obtain ⟨t', harr', ⟨more, hf⟩, hb, hgeo⟩ := heard_iff_arrives.mp hm
  obtain rfl := harr.unique harr'
  rw [hup, splitOn_fieldsLine h.comma] at hf
  simp only [List.cons_append, List.cons.injEq] at hf
  obtain ⟨hname, hvnf, htype, hgroup, hif, -⟩ := hf
  subst hname hvnf htype hgroup hif
  rw [← hgeo]
  exact ⟨rfl, hb⟩

end Fields

section Claim

variable (name vnfId typeId groupId iftype : Text)

def transit : List RegisterDict :=
  match sendCom name vnfId typeId groupId iftype with
  | .ok datagram => (recv [datagram]).sent
  | .error _ => []

/-- Nothing is registered, or exactly the five strings with the right `bidirectional`. -/
def Unaltered : Prop :=
  transit name vnfId typeId groupId iftype = [] ∨ ∃ bidirectional,
    transit name vnfId typeId groupId iftype =
      [⟨vnfId, name, typeId, groupId, ogeoLocation, iftype, bidirectional⟩] ∧
    (bidirectional = "True".toList ↔ intOfString iftype = .ok 3)

/-- The message is too long to be sent, or what arrives of it up to the second delimiter has no
fifth field that denotes 1, 2 or 3. -/
def Unread : Prop :=
  maxPayload < (encode (comMsg name vnfId typeId groupId iftype)).size ∨
    ∀ t, Arrives (fieldsLine name vnfId typeId groupId iftype) t →
      ∀ f, ((upTo delimiter t).splitOn ',')[4]? = some f →
        ∀ n, intOfString f = .ok n → n ≠ 1 ∧ n ≠ 2 ∧ n ≠ 3

variable {name vnfId typeId groupId iftype}

theorem exists_parses {command : Text} : (∃ m, Parses command m) ↔
    ∃ f, (command.splitOn ',')[4]? = some f ∧ ∃ n, intOfString f = .ok n ∧ (n = 1 ∨ n = 2 ∨ n = 3) := by
  constructor
  · rintro ⟨m, ⟨more, hf⟩, hb, -⟩
    obtain ⟨n, hn, hcase⟩ := obidirectional_eq_ok.mp hb
    refine ⟨m.iftype, by rw [hf]; rfl, n, hn, ?_⟩
    rcases hcase with ⟨h12, -⟩ | ⟨h3, -⟩
    · omega
    · omega
  · rintro ⟨f, hf, n, hn, hcase⟩
    obtain ⟨b, hb⟩ : ∃ b, obidirectional f = .ok b := by
      rcases hcase with h | h | h
      · exact ⟨_, obidirectional_eq_ok.mpr ⟨n, hn, .inl ⟨.inl h, rfl⟩⟩⟩
      · exact ⟨_, obidirectional_eq_ok.mpr ⟨n, hn, .inl ⟨.inr h, rfl⟩⟩⟩
      · exact ⟨_, obidirectional_eq_ok.mpr ⟨n, hn, .inr ⟨h, rfl⟩⟩⟩
    obtain ⟨a, s, d, e, more, hs⟩ : ∃ a s d e more,
        command.splitOn ',' = [a, s, d, e, f] ++ more := by
      generalize command.splitOn ',' = fields at hf
      rcases fields with _ | ⟨a, _ | ⟨s, _ | ⟨d, _ | ⟨e, _ | ⟨f', more⟩⟩⟩⟩⟩
      all_goals first | cases hf; done | skip
      obtain rfl : f' = f := Option.some.inj hf
      exact ⟨a, s, d, e, more, rfl⟩
    exact ⟨⟨s, a, d, e, ogeoLocation, f, b⟩, ⟨more, hs⟩, hb, rfl⟩

theorem transit_cases (name vnfId typeId groupId iftype : Text) :
    (transit name vnfId typeId groupId iftype = [] ∧
      (maxPayload < (encode (comMsg name vnfId typeId groupId iftype)).size ∨
        ∀ m, ¬ Heard (encode (comMsg name vnfId typeId groupId iftype)) m)) ∨
    ∃ m, transit name vnfId typeId groupId iftype = [m] ∧
      (encode (comMsg name vnfId typeId groupId iftype)).size ≤ maxPayload ∧
      Heard (encode (comMsg name vnfId typeId groupId iftype)) m := by
  unfold transit sendCom
  by_cases hsize : (encode (comMsg name vnfId typeId groupId iftype)).size ≤ maxPayload
  swap
  · simp only [if_neg hsize]
    exact .inl ⟨trivial, .inl (Nat.lt_of_not_le hsize)⟩
  simp only [if_pos hsize]
  by_cases h : ∃ m, Heard (encode (comMsg name vnfId typeId groupId iftype)) m
  · obtain ⟨m, hm⟩ := h
    exact .inr ⟨m, by rw [recv_of_heard hm]; rfl, hsize, hm⟩
  · have hnone := not_exists.mp h
    exact .inl ⟨(recv_of_not_heard hnone []).1, .inr hnone⟩

theorem unread_iff : Unread name vnfId typeId groupId iftype ↔
    transit name vnfId typeId groupId iftype = [] := by
  rcases transit_cases name vnfId typeId groupId iftype with ⟨hnil, hstop⟩ | ⟨m, hsent, hsize, hm⟩
  · refine iff_of_true ?_ hnil
    rcases hstop with hsize | hnone
    · exact .inl hsize
    refine .inr fun t harr f hf n hn ↦ ?_
    by_contra hcase
    obtain ⟨m, hm⟩ := exists_parses.mpr ⟨f, hf, n, hn, by omega⟩
    exact hnone m (heard_iff_arrives.mpr ⟨t, harr, hm⟩)
  · refine iff_of_false ?_ (by simp [hsent])
    rintro (hlong | hnone)
    · omega
    obtain ⟨t, harr, hp⟩ := heard_iff_arrives.mp hm
    obtain ⟨f, hf, n, hn, hcase⟩ := exists_parses.mp ⟨m, hp⟩
    have hno := hnone t harr f hf n hn
    omega

theorem true_iff {bidirectional : Text} (hb : obidirectional iftype = .ok bidirectional) :
    bidirectional = "True".toList ↔ intOfString iftype = .ok 3 := by
  obtain ⟨n, hn, ⟨h12, rfl⟩ | ⟨rfl, rfl⟩⟩ := obidirectional_eq_ok.mp hb
  · refine iff_of_false (by decide) fun h3 ↦ ?_
    have heq := Except.ok.inj (hn.symm.trans h3)
    omega
  · exact iff_of_true rfl hn

/-- A registration is unaltered exactly if no delimiter is inside of it and it is short enough, or
if the agent cannot read it. -/
theorem unaltered_iff (name vnfId typeId groupId iftype : Text) :
    Unaltered name vnfId typeId groupId iftype ↔
      Clean name vnfId typeId groupId iftype ∨ Unread name vnfId typeId groupId iftype := by
  rw [unread_iff]
  rcases transit_cases name vnfId typeId groupId iftype with ⟨hnil, -⟩ | ⟨m, hsent, -, hm⟩
  · exact iff_of_true (.inl hnil) (.inr hnil)
  constructor
  · rintro (hnil | ⟨bidirectional, heq, -⟩)
    · exact .inr hnil
    · obtain rfl : m = _ := List.singleton_inj.mp (hsent.symm.trans heq)
      exact .inl (clean_of_heard hm).1
  · rintro (hclean | hnil)
    · obtain ⟨heq, hb⟩ := hclean.heard_eq hm
      exact .inr ⟨m.bidirectional, hsent.trans (congrArg (fun m ↦ [m]) heq), true_iff hb⟩
    · exact .inl hnil

def altered : RegisterDict where
  vnfId := "1".toList
  name := "a".toList
  typeId := "2".toList
  groupId := "3".toList
  geoLocation := ogeoLocation
  iftype := "3".toList
  bidirectional := "True".toList

theorem comma_alters :
    transit "a,1".toList "2".toList "3".toList "3".toList "3".toList = [altered] ∧
      ¬ Unaltered "a,1".toList "2".toList "3".toList "3".toList "3".toList := by
  have hheard : Heard (encode (comMsg "a,1".toList "2".toList "3".toList "3".toList "3".toList))
      altered := by
    refine heard_iff_arrives.mpr ⟨_, ⟨List.prefix_refl _, ?_⟩, ⟨["3".toList], ?_⟩, ?_, rfl⟩
    · rw [extract_of_size_le (by decide)]
    · decide
    · decide
  have hsent : transit "a,1".toList "2".toList "3".toList "3".toList "3".toList = [altered] := by
    rcases transit_cases "a,1".toList "2".toList "3".toList "3".toList "3".toList with
      ⟨-, hlong | hnone⟩ | ⟨m, hsent, -, hm⟩
    · exact absurd hlong (by decide)
    · exact absurd hheard (hnone _)
    · rw [hsent, hm.unique hheard]
  refine ⟨hsent, ?_⟩
  rintro (hnil | ⟨b, heq, -⟩)
  · rw [hsent] at hnil
    cases hnil
  · have hname : "a".toList = "a,1".toList :=
      congrArg RegisterDict.name (List.singleton_inj.mp (hsent.symm.trans heq))
    exact absurd hname (by decide)

end Claim

end NshSfc.Transit
