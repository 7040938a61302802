import NshSfc.Transit

namespace NshSfc.Listening

open Library Python Agent Transit

/-- The delimiters around five fields with commas between them, the last of which denotes 1, 2
or 3, and the message for them. -/
structure WellFormed (datagram : ByteArray) (m : RegisterDict) : Prop where
  bytes : datagram = encode (comMsg m.name m.vnfId m.typeId m.groupId m.iftype)
  comma : CommaFree m.name m.vnfId m.typeId m.groupId m.iftype
  delimiter : ¬ delimiter <:+: fieldsLine m.name m.vnfId m.typeId m.groupId m.iftype
  iftype : ∃ n, intOfString m.iftype = .ok n ∧
    ((n = 1 ∨ n = 2) ∧ m.bidirectional = "False".toList ∨ n = 3 ∧ m.bidirectional = "True".toList)
  geoLocation : m.geoLocation = ogeoLocation

inductive Answers : List ByteArray → List RegisterDict → Prop
  | nil : Answers [] []
  | wellFormed {datagram : ByteArray} {m : RegisterDict} (h : WellFormed datagram m)
      {datagrams : List ByteArray} {ms : List RegisterDict} (hs : Answers datagrams ms) :
      Answers (datagram :: datagrams) (m :: ms)
  | malformed {datagram : ByteArray} (h : ∀ m, ¬ WellFormed datagram m)
      {datagrams : List ByteArray} {ms : List RegisterDict} (hs : Answers datagrams ms) :
      Answers (datagram :: datagrams) ms

/-- The agent has sent the messages of the well-formed datagrams and is still listening. -/
def Robust (datagrams : List ByteArray) : Prop :=
  Answers datagrams (recv datagrams).sent ∧ (recv datagrams).result = .ok true

variable {datagram : ByteArray} {datagrams : List ByteArray} {m : RegisterDict}
  {ms : List RegisterDict}

theorem Answers.length_le (h : Answers datagrams ms) : ms.length ≤ datagrams.length := by
  induction h with
  | nil => exact le_rfl
  | wellFormed _ _ ih => exact Nat.succ_le_succ ih
  | malformed _ _ ih => exact Nat.le_succ_of_le ih

theorem Answers.forall₂ (h : Answers datagrams ms) (hlen : ms.length = datagrams.length) :
    List.Forall₂ WellFormed datagrams ms := by
  induction h with
  | nil => exact .nil
  | wellFormed h _ ih => exact .cons h (ih (by simpa using hlen))
  | malformed _ hs _ =>
    have hle := hs.length_le
    rw [List.length_cons] at hlen
    omega

theorem WellFormed.heard_iff (h : WellFormed datagram m) :
    Heard datagram m ↔ datagram.size ≤ bufferSize ∨ datagram.size = bufferSize + 2 := by
  obtain ⟨n, hn, hcase⟩ := h.iftype
  have hb : obidirectional m.iftype = .ok m.bidirectional := obidirectional_eq_ok.mpr ⟨n, hn, hcase⟩
  have hm : m = ⟨m.vnfId, m.name, m.typeId, m.groupId, ogeoLocation, m.iftype, m.bidirectional⟩ := by
    rw [← h.geoLocation]
  rw [h.bytes]
  constructor
  · intro hheard
    rw [hm] at hheard
    exact (clean_of_heard hheard).1.fits
  · intro hfits
    rw [hm]
    exact heard_of_clean ⟨h.comma, h.delimiter, dollar_not_last hn, hfits⟩ hb

/-- The agent meets its purpose exactly if no datagram is malformed or too long for the buffer. -/
theorem robust_iff (datagrams : List ByteArray) : Robust datagrams ↔ ∀ datagram ∈ datagrams,
    (∃ m, WellFormed datagram m) ∧ (datagram.size ≤ bufferSize ∨ datagram.size = bufferSize + 2) := by
  constructor
  · rintro ⟨hanswers, hlistens⟩
    have hheard := recv_listens_iff.mp hlistens
    have hwell := hanswers.forall₂ hheard.length_eq.symm
    generalize (recv datagrams).sent = ms at hheard hwell
    clear hanswers hlistens
    induction hheard with
    | nil => simp
    | cons hm _ ih =>
      obtain ⟨hw, hwell⟩ := List.forall₂_cons.mp hwell
      exact List.forall_mem_cons.mpr ⟨⟨⟨_, hw⟩, hw.heard_iff.mp hm⟩, ih hwell⟩
  · intro h
    induction datagrams with
    | nil => exact ⟨.nil, rfl⟩
    | cons datagram datagrams ih =>
      obtain ⟨⟨⟨m, hm⟩, hfits⟩, hrest⟩ := List.forall_mem_cons.mp h
      obtain ⟨hanswers, hlistens⟩ := ih hrest
      rw [Robust, recv_of_heard (hm.heard_iff.mpr hfits)]
      exact ⟨.wellFormed hm hanswers, hlistens⟩

section Demo

def forward1 : RegisterDict where
  vnfId := "1".toList
  name := "forward1".toList
  typeId := "1".toList
  groupId := "1".toList
  geoLocation := ogeoLocation
  iftype := "3".toList
  bidirectional := "True".toList

def forward1Datagram : ByteArray := encode "$$forward1,1,1,1,3$$".toList

theorem forward1_wellFormed : WellFormed forward1Datagram forward1 where
  bytes := by decide
  comma := by
    unfold CommaFree
    decide
  delimiter := by decide
  iftype := ⟨3, by decide, .inr ⟨rfl, rfl⟩⟩
  geoLocation := rfl

/-- After a datagram without delimiters the agent does not register the VNF. -/
theorem registration_lost : WellFormed forward1Datagram forward1 ∧
    (recv [encode "x".toList, forward1Datagram]).sent = [] ∧
      ¬ Robust [encode "x".toList, forward1Datagram] := by
  have hnot : ∀ m, ¬ Heard (encode "x".toList) m := by
    rintro m ⟨t, c, ht, hc, -⟩
    rw [extract_of_size_le (by decide), decode_encode] at ht
    obtain rfl : "x".toList = t := Except.ok.inj ht
    have hnone : (splitText delimiter "x".toList)[1]? = none := by decide
    cases hc.symm.trans hnone
  obtain ⟨hsent, hstop⟩ := recv_of_not_heard hnot [forward1Datagram]
  exact ⟨forward1_wellFormed, hsent, fun hrobust ↦ hstop hrobust.2⟩

end Demo

end NshSfc.Listening
