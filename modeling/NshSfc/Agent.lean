import NshSfc.Library.Delimited
import NshSfc.Library.Script
import NshSfc.Python

namespace NshSfc.Agent

open Library Python

/-- Text as Python sees it; a text with a lone surrogate cannot be encoded and is not sent. -/
abbrev Text := List Char

structure RegisterDict where
  vnfId : Text
  name : Text
  typeId : Text
  groupId : Text
  geoLocation : Text
  iftype : Text
  bidirectional : Text
deriving DecidableEq

def delimiter : Text := "$$".toList

def ogeoLocation : Text := "server1.rack2.row3.room4".toList

def maxPayload : ℕ := 65507

def bufferSize : ℕ := 2048

def fieldsLine (name vnfId typeId groupId iftype : Text) : Text :=
  [','].intercalate [name, vnfId, typeId, groupId, iftype]

def comMsg (name vnfId typeId groupId iftype : Text) : Text :=
  delimiter ++ (fieldsLine name vnfId typeId groupId iftype ++ delimiter)

def encode (msg : Text) : ByteArray := (String.ofList msg).toByteArray

def sendCom (name vnfId typeId groupId iftype : Text) : Except PyError ByteArray :=
  let msg := encode (comMsg name vnfId typeId groupId iftype)
  if msg.size ≤ maxPayload then .ok msg else .error .osError

abbrev Run (α : Type) := Script RegisterDict PyError α

def item {α : Type} (l : List α) (i : ℕ) : Run α :=
  .lift <| match l[i]? with
    | some a => .ok a
    | none => .error .indexError

def decode (data : ByteArray) : Run Text :=
  .lift <| match data.utf8Decode? with
    | some recvdata => .ok recvdata.toList
    | none => .error .unicodeDecodeError

/-- The branches on `int(oiftype)`. Without one of them `obidirectional` stays unbound. -/
def obidirectional (oiftype : Text) : Except PyError Text := do
  let n ← intOfString oiftype
  if n = 1 ∨ n = 2 then .ok "False".toList
  else if n = 3 then .ok "True".toList
  else .error .unboundLocalError

def dealWithMsg (command : Text) : Run Unit := do
  let fields := command.splitOn ','
  let oname ← item fields 0
  let oVNFid ← item fields 1
  let otypeId ← item fields 2
  let ogroupId ← item fields 3
  let oiftype ← item fields 4
  let bidirectional ← .lift (obidirectional oiftype)
  .send ⟨oVNFid, oname, otypeId, ogroupId, ogeoLocation, oiftype, bidirectional⟩

/-- One iteration of the loop; `false` is the `break`. -/
def receive (datagram : ByteArray) : Run Bool := do
  let data := datagram.extract 0 bufferSize
  if data.size = 0 then return false
  let recvdata ← decode data
  let command ← item (splitText delimiter recvdata) 1
  dealWithMsg command
  return true

def recv : List ByteArray → Run Bool
  | [] => pure true
  | datagram :: datagrams => do
    if ← receive datagram then recv datagrams else return false

section Encoding

variable {t u : Text}

@[simp] theorem encode_append (t u : Text) : encode (t ++ u) = encode t ++ encode u := by
  simp [encode, String.ofList_append]

theorem decode_encode (t : Text) : decode (encode t) = pure t := by
  simp [decode, encode]
  rfl

theorem encode_of_decode {data : ByteArray} (h : (decode data).result = .ok t) : data = encode t := by
  unfold decode at h
  cases hd : data.utf8Decode? with
  | none =>
    rw [hd] at h
    cases h
  | some chars =>
    rw [hd] at h
    have hget : (data.utf8Decode?.get (by simp [hd])).toList = chars.toList := by simp [hd]
    obtain rfl : chars.toList = t := Except.ok.inj h
    rw [encode, String.toByteArray_ofList, ← hget, ByteArray.utf8Encode_get_utf8Decode?]

theorem prefix_of_encode {data : ByteArray} (h : encode t ++ data = encode u) : t <+: u := by
  simp only [encode, String.toByteArray_ofList] at h
  exact List.isPrefix_of_utf8Encode_append_eq_utf8Encode data h

theorem encode_size_pos (c : Char) (t : Text) : 0 < (encode (c :: t)).size := by
  have hsize : (encode [c]).size = c.utf8Size := by simp [encode, List.utf8Encode_singleton]
  rw [← List.singleton_append, encode_append, ByteArray.size_append, hsize]
  exact Nat.add_pos_left c.utf8Size_pos _

theorem eq_nil_of_size (h : (encode t).size = 0) : t = [] := by
  cases t with
  | nil => rfl
  | cons c t =>
    have hpos := encode_size_pos c t
    omega

end Encoding

/-- The message that the agent makes of a command. Fields after the fifth are ignored. -/
structure Parses (command : Text) (m : RegisterDict) : Prop where
  fields : ∃ more, command.splitOn ',' = [m.name, m.vnfId, m.typeId, m.groupId, m.iftype] ++ more
  bidirectional : obidirectional m.iftype = .ok m.bidirectional
  geoLocation : m.geoLocation = ogeoLocation

def Heard (datagram : ByteArray) (m : RegisterDict) : Prop :=
  ∃ recvdata command, (decode (datagram.extract 0 bufferSize)).result = .ok recvdata ∧
    (splitText delimiter recvdata)[1]? = some command ∧ Parses command m

section Loop

open Script

variable {command : Text} {m m' : RegisterDict} {datagram : ByteArray} {datagrams : List ByteArray}

theorem Parses.unique (h : Parses command m) (h' : Parses command m') : m = m' := by
  obtain ⟨⟨more, hf⟩, hb, hg⟩ := h
  obtain ⟨⟨more', hf'⟩, hb', hg'⟩ := h'
  have heq := hf.symm.trans hf'
  simp only [List.cons_append, List.cons.injEq] at heq
  obtain ⟨hname, hvnf, htype, hgroup, hif, -⟩ := heq
  rw [← hif, hb] at hb'
  cases m
  cases m'
  simp_all

theorem Heard.unique (h : Heard datagram m) (h' : Heard datagram m') : m = m' := by
  obtain ⟨t, c, ht, hc, hm⟩ := h
  obtain ⟨t', c', ht', hc', hm'⟩ := h'
  obtain rfl := Except.ok.inj (ht.symm.trans ht')
  obtain rfl := Option.some.inj (hc.symm.trans hc')
  exact hm.unique hm'

theorem item_of_some {α : Type} {l : List α} {i : ℕ} {a : α} (h : l[i]? = some a) :
    item l i = pure a := by
  rw [item, h]
  rfl

theorem item_of_none {α : Type} {l : List α} {i : ℕ} (h : l[i]? = none) :
    item l i = .raise .indexError := by
  rw [item, h]
  rfl

theorem dealWithMsg_of_five {name vnfId typeId groupId iftype : Text} {more : List Text}
    (h : command.splitOn ',' = [name, vnfId, typeId, groupId, iftype] ++ more) :
    dealWithMsg command = Script.lift (obidirectional iftype) >>= fun bidirectional ↦
      .send ⟨vnfId, name, typeId, groupId, ogeoLocation, iftype, bidirectional⟩ := by
  unfold dealWithMsg
  rw [h]
  rfl

theorem dealWithMsg_of_few (h : (command.splitOn ',').length < 5) :
    dealWithMsg command = .raise .indexError := by
  unfold dealWithMsg
  generalize command.splitOn ',' = fields at h
  rcases fields with _ | ⟨_, _ | ⟨_, _ | ⟨_, _ | ⟨_, _ | ⟨_, more⟩⟩⟩⟩⟩
  all_goals first | rfl | (simp only [List.length_cons] at h; omega)

theorem dealWithMsg_cases (command : Text) :
    (∃ m, Parses command m ∧ dealWithMsg command = .send m) ∨
      (∀ m, ¬ Parses command m) ∧ ∃ e, dealWithMsg command = .raise e := by
  by_cases hlen : (command.splitOn ',').length < 5
  · refine .inr ⟨fun m hm ↦ ?_, .indexError, dealWithMsg_of_few hlen⟩
    obtain ⟨more, hf⟩ := hm.fields
    rw [hf, List.length_append] at hlen
    simp only [List.length_cons, List.length_nil] at hlen
    omega
  obtain ⟨name, vnfId, typeId, groupId, iftype, more, hf⟩ : ∃ name vnfId typeId groupId iftype more,
      command.splitOn ',' = [name, vnfId, typeId, groupId, iftype] ++ more := by
    generalize command.splitOn ',' = fields at hlen
    rcases fields with _ | ⟨a, _ | ⟨b, _ | ⟨c, _ | ⟨d, _ | ⟨e, more⟩⟩⟩⟩⟩
    all_goals first | exact ⟨a, b, c, d, e, more, rfl⟩ | simp at hlen
  rw [dealWithMsg_of_five hf]
  cases hb : obidirectional iftype with
  | ok bidirectional => exact .inl ⟨_, ⟨⟨more, hf⟩, hb, rfl⟩, rfl⟩
  | error e =>
    refine .inr ⟨fun m hm ↦ ?_, e, rfl⟩
    obtain ⟨more', hf'⟩ := hm.fields
    have hiftype : iftype = m.iftype := by
      have heq := hf.symm.trans hf'
      simp only [List.cons_append, List.cons.injEq] at heq
      exact heq.2.2.2.2.1
    rw [hiftype, hm.bidirectional] at hb
    cases hb

theorem receive_cases (datagram : ByteArray) :
    (∃ m, Heard datagram m ∧ receive datagram = ⟨[m], .ok true⟩) ∨
      (∀ m, ¬ Heard datagram m) ∧ (receive datagram).sent = [] ∧
        (receive datagram).result ≠ .ok true := by
  unfold receive Heard
  generalize datagram.extract 0 bufferSize = data
  by_cases hempty : data.size = 0
  · rw [if_pos hempty]
    refine .inr ⟨?_, rfl, by simp⟩
    rintro m ⟨t, c, ht, hc, -⟩
    rw [encode_of_decode ht] at hempty
    rw [eq_nil_of_size hempty] at hc
    cases hc
  rw [if_neg hempty]
  cases ht : (decode data).result with
  | error e =>
    rw [Script.bind_of_error ht]
    exact .inr ⟨by simp, rfl, by simp⟩
  | ok t =>
    have hdecode : decode data = pure t := Script.eq_of_sent_nil rfl ht
    rw [hdecode, Script.pure_bind]
    cases hc : (splitText delimiter t)[1]? with
    | none =>
      rw [item_of_none hc, Script.raise_bind]
      refine .inr ⟨?_, rfl, by simp⟩
      rintro m ⟨t', c, ht', hc', -⟩
      obtain rfl := Except.ok.inj ht'
      rw [hc] at hc'
      cases hc'
    | some c =>
      rw [item_of_some hc, Script.pure_bind]
      rcases dealWithMsg_cases c with ⟨m, hm, hrun⟩ | ⟨hnone, e, hrun⟩
      · rw [hrun, Script.bind_of_ok rfl]
        exact .inl ⟨m, ⟨t, c, rfl, hc, hm⟩, rfl⟩
      · rw [hrun, Script.raise_bind]
        refine .inr ⟨?_, rfl, by simp⟩
        rintro m ⟨t', c', ht', hc', hm⟩
        obtain rfl := Except.ok.inj ht'
        obtain rfl := Option.some.inj (hc.symm.trans hc')
        exact hnone m hm

theorem recv_of_heard (h : Heard datagram m) (datagrams : List ByteArray) :
    recv (datagram :: datagrams) = ⟨m :: (recv datagrams).sent, (recv datagrams).result⟩ := by
  rcases receive_cases datagram with ⟨m', hm', hrun⟩ | ⟨hnone, -⟩
  · rw [recv, hrun, Script.bind_of_ok rfl, h.unique hm']
    rfl
  · exact absurd h (hnone m)

theorem recv_of_not_heard (h : ∀ m, ¬ Heard datagram m) (datagrams : List ByteArray) :
    (recv (datagram :: datagrams)).sent = [] ∧
      (recv (datagram :: datagrams)).result ≠ .ok true := by
  rcases receive_cases datagram with ⟨m, hm, -⟩ | ⟨-, hsent, hstop⟩
  · exact absurd hm (h m)
  · rw [recv]
    cases hr : (receive datagram).result with
    | error e =>
      rw [Script.bind_of_error hr]
      exact ⟨hsent, by simp⟩
    | ok goesOn =>
      rw [Script.bind_of_ok hr, hsent]
      cases goesOn with
      | false => exact ⟨rfl, by simp⟩
      | true => exact absurd hr hstop

/-- The loop goes on exactly as long as every datagram leads to a message. -/
theorem recv_listens_iff : (recv datagrams).result = .ok true ↔
    List.Forall₂ Heard datagrams (recv datagrams).sent := by
  induction datagrams with
  | nil => exact iff_of_true rfl .nil
  | cons datagram datagrams ih =>
    by_cases h : ∃ m, Heard datagram m
    · obtain ⟨m, hm⟩ := h
      rw [recv_of_heard hm, List.forall₂_cons, ih]
      exact ⟨fun hrest ↦ ⟨hm, hrest⟩, fun hrest ↦ hrest.2⟩
    · obtain ⟨hsent, hstop⟩ := recv_of_not_heard (fun m hm ↦ h ⟨m, hm⟩) datagrams
      rw [hsent]
      exact iff_of_false hstop (by simp)

end Loop

end NshSfc.Agent
