import NshSfc.Ofproto

namespace NshSfc.NxSequences

open Library Python Ofproto

section Numbers

variable (ryu : Ryu)

def packFrom : List ℕ → List UInt8 → ℕ → Except PyError (List UInt8 × ℕ)
  | [], data, offset => .ok (data, offset)
  | n :: ns, data, offset => do
    let packed ← H.pack n
    packFrom ns (ryu.msgPackInto data offset packed) (offset + 2)

/-- `'%dx' % k * 2` pads twice `k` bytes: the text of the format is repeated. -/
def padNumbers (count : ℕ) (data : List UInt8) (offset : ℕ) : List UInt8 :=
  let padLen := (ryu.roundUp count 4 - count).toNat
  if padLen ≠ 0 then ryu.msgPackInto data offset (List.replicate (2 * padLen) 0) else data

variable {ryu : Ryu} {ns : List ℕ} {data buf : List UInt8} {offset offset' : ℕ}

theorem packFrom_end (h : packFrom ryu ns data data.length = .ok (buf, offset)) :
    ∃ bs, H.packAll ns = .ok bs ∧ buf = data ++ bs ∧ offset = buf.length := by
  induction ns generalizing data with
  | nil =>
    obtain ⟨rfl, rfl⟩ := Prod.mk.inj (Except.ok.inj h)
    exact ⟨[], rfl, (List.append_nil _).symm, rfl⟩
  | cons n ns ih =>
    obtain ⟨packed, hpacked, h⟩ := bind_eq_ok h
    have hlen : data.length + 2 = (data ++ packed).length := by
      rw [List.length_append, H.length_pack hpacked]
      rfl
    rw [ryu.msgPackInto_end, hlen] at h
    obtain ⟨bs, hbs, rfl, rfl⟩ := ih h
    refine ⟨packed ++ bs, ?_, by rw [List.append_assoc], rfl⟩
    rw [Format.packAll, hpacked, hbs]
    rfl

theorem packFrom_nil {n : ℕ} (h : packFrom ryu (n :: ns) [] offset = .ok (buf, offset')) :
    ∃ bs, H.packAll (n :: ns) = .ok bs ∧ buf = List.replicate offset 0 ++ bs ∧
      offset' = buf.length := by
  obtain ⟨packed, hpacked, h⟩ := bind_eq_ok h
  have hlen : offset + 2 = (List.replicate offset 0 ++ packed).length := by
    rw [List.length_append, List.length_replicate, H.length_pack hpacked]
    rfl
  rw [ryu.msgPackInto_behind _ _ _ (Nat.zero_le _), List.length_nil, Nat.sub_zero, List.nil_append,
    hlen] at h
  obtain ⟨bs, hbs, rfl, rfl⟩ := packFrom_end h
  refine ⟨packed ++ bs, ?_, by rw [List.append_assoc], rfl⟩
  rw [Format.packAll, hpacked, hbs]
  rfl

theorem padNumbers_end (ryu : Ryu) (count : ℕ) (data : List UInt8) : ∃ k,
    padNumbers ryu count data data.length = data ++ List.replicate k 0 ∧ (2 * count + k) % 8 = 0 := by
  have hround := ryu.roundUp_eq count 4
  rw [padNumbers]
  split_ifs with hpad
  · exact ⟨_, ryu.msgPackInto_end _ _, by omega⟩
  · refine ⟨0, (List.append_nil _).symm, ?_⟩
    omega

theorem length_packAll (h : H.packAll ns = .ok buf) : buf.length = 2 * ns.length := by
  rw [Format.length_packAll h]
  exact Nat.mul_comm _ _

end Numbers

namespace NXActionNote

def filled (note : List ℕ) : List ℕ :=
  let pad := (note.length + 2) % 8
  if pad ≠ 0 then note ++ List.replicate (8 - pad) 0x0 else note

section Code

variable (ryu : Ryu)

def parser (buf : List UInt8) : Except PyError (List ℕ) := B.unpackAll buf.length buf

def serializeBody (note : List ℕ) : Except PyError (List UInt8) := do
  let packed ← B.packAll (filled note)
  return ryu.msgPackInto [] 0 packed

end Code

variable {ryu : Ryu} {note : List ℕ} {bs : List UInt8}

theorem length_filled (note : List ℕ) : (filled note).length % 8 = 6 := by
  rw [filled]
  split_ifs with hpad
  · rw [List.length_append, List.length_replicate]
    omega
  · omega

theorem filled_eq_iff : filled note = note ↔ note.length % 8 = 6 := by
  constructor
  · intro h
    rw [← h]
    exact length_filled note
  · intro h
    have hpad : ¬ (note.length + 2) % 8 ≠ 0 := by omega
    exact if_neg hpad

theorem packAll_zeros (k : ℕ) : B.packAll (List.replicate k 0) = .ok (List.replicate k 0) := by
  induction k with
  | zero => rfl
  | succ k ih =>
    have hone : B.pack 0 = .ok [0] := rfl
    rw [List.replicate_succ, Format.packAll, hone, ih]
    rfl

theorem length_serializeBody (h : serializeBody ryu note = .ok bs) :
    bs.length = (filled note).length := by
  obtain ⟨packed, hpacked, h⟩ := bind_eq_ok h
  obtain rfl := Except.ok.inj h
  rw [ryu.msgPackInto_nil, Format.length_packAll hpacked]
  exact Nat.mul_one _

theorem parser_zeros (h : serializeBody ryu note = .ok bs) (k : ℕ) :
    parser (bs ++ List.replicate k 0) = .ok (filled note ++ List.replicate k 0) := by
  have hlen := length_serializeBody h
  obtain ⟨packed, hpacked, h⟩ := bind_eq_ok h
  rw [ryu.msgPackInto_nil] at h
  obtain rfl := Except.ok.inj h
  have hcount : (packed ++ List.replicate k (0 : UInt8)).length =
      (filled note ++ List.replicate k 0).length := by
    rw [List.length_append, List.length_append, hlen, List.length_replicate, List.length_replicate]
  have hread := Format.unpackAll_append (Format.packAll_append hpacked (packAll_zeros k)) []
  rwa [List.append_nil, ← hcount] at hread

/-- A note comes back if and only if it fills the action up by itself. -/
theorem parser_serializeBody_iff (h : serializeBody ryu note = .ok bs) (k : ℕ) :
    parser (bs ++ List.replicate k 0) = .ok note ↔ k = 0 ∧ note.length % 8 = 6 := by
  rw [parser_zeros h, Except.ok.injEq, ← filled_eq_iff]
  constructor
  · intro heq
    have hle : note.length ≤ (filled note).length := by
      rw [filled]
      split_ifs
      · rw [List.length_append]
        exact Nat.le_add_right _ _
      · exact le_rfl
    have hlen := congrArg List.length heq
    rw [List.length_append, List.length_replicate] at hlen
    obtain rfl : k = 0 := by omega
    rw [List.replicate_zero, List.append_nil] at heq
    exact ⟨rfl, heq⟩
  · intro ⟨hk, hfilled⟩
    rw [hk, List.replicate_zero, List.append_nil, hfilled]

end NXActionNote

namespace NXActionDecTtlCntIds

def fmtStr : Fmt ℕ := paddedBy 4 H

section Code

variable (ryu : Ryu)

def parser (buf : List UInt8) : Except PyError (List ℕ) := do
  let controllers ← fmtStr.unpackFrom buf
  H.unpackAll controllers (buf.drop 6)

def serializeBody (cntIds : List ℕ) : Except PyError (List UInt8) := do
  let controllers := cntIds.length
  let packed ← fmtStr.pack controllers
  let (data, offset) ← packFrom ryu cntIds (ryu.msgPackInto [] 0 packed) 6
  return padNumbers ryu controllers data offset

end Code

variable {ryu : Ryu} {cntIds : List ℕ} {bs : List UInt8}

theorem serializeBody_eq_ok (h : serializeBody ryu cntIds = .ok bs) : ∃ packed ids k,
    fmtStr.pack cntIds.length = .ok packed ∧ H.packAll cntIds = .ok ids ∧
      bs = packed ++ (ids ++ List.replicate k 0) ∧ (2 * cntIds.length + k) % 8 = 0 := by
  obtain ⟨packed, hpacked, h⟩ := bind_eq_ok h
  obtain ⟨⟨data, offset⟩, hloop, h⟩ := bind_eq_ok h
  have hsix : packed.length = 6 := fmtStr.length_pack hpacked
  rw [ryu.msgPackInto_nil, ← hsix] at hloop
  obtain ⟨ids, hids, rfl, rfl⟩ := packFrom_end hloop
  obtain ⟨k, hk, height⟩ := padNumbers_end ryu cntIds.length (packed ++ ids)
  obtain rfl := Except.ok.inj h
  exact ⟨packed, ids, k, hpacked, hids, by rw [hk, List.append_assoc], height⟩

theorem parser_append (h : serializeBody ryu cntIds = .ok bs) (rest : List UInt8) :
    parser (bs ++ rest) = .ok cntIds := by
  obtain ⟨packed, ids, k, hpacked, hids, rfl, -⟩ := serializeBody_eq_ok h
  have hdrop : (packed ++ (ids ++ List.replicate k 0) ++ rest).drop 6 =
      ids ++ (List.replicate k 0 ++ rest) := by
    rw [List.append_assoc, List.append_assoc]
    exact fmtStr.drop_pack hpacked _
  rw [parser, hdrop, List.append_assoc, fmtStr.unpackFrom_append hpacked, ok_bind,
    Format.unpackAll_append hids]

theorem length_serializeBody (h : serializeBody ryu cntIds = .ok bs) : bs.length % 8 = 6 := by
  obtain ⟨packed, ids, k, hpacked, hids, rfl, height⟩ := serializeBody_eq_ok h
  have hsix : packed.length = 6 := fmtStr.length_pack hpacked
  rw [List.length_append, List.length_append, hsix, length_packAll hids, List.length_replicate]
  omega

end NXActionDecTtlCntIds

inductive Bundle
  | bundle
  | bundleLoad
deriving DecidableEq

/-- No field stands for the 0 that `dst` may be. -/
structure NXActionBundleBase where
  algorithm : ℕ
  fields : ℕ
  basis : ℕ
  slaveType : ℕ
  nSlaves : ℕ
  ofsNbits : ℕ
  dst : Option String
  slaves : List ℕ
deriving DecidableEq

namespace NXActionBundleBase

def fmtStr : Fmt (ℕ × ℕ × ℕ × ℕ × ℕ × ℕ) := H.seq (H.seq (H.seq (I.seq (H.seq H))))

section Code

variable (ryu : Ryu)

/-- The constructor of the class. "NXAST_BUNDLE actions should have 'sofs_nbits' and 'dst'
zeroed." -/
def new (c : Bundle) (a : NXActionBundleBase) : NXActionBundleBase :=
  match c with
  | .bundle => { a with ofsNbits := 0, dst := none }
  | .bundleLoad => a

def parseDst (dst : ℕ) (buf : List UInt8) : Except PyError (Option String) :=
  if dst ≠ 0 then do
    let (field, _) ← ryu.readHeader (buf.drop 14)
    return some field
  else .ok none

def parser (c : Bundle) (buf : List UInt8) : Except PyError NXActionBundleBase := do
  let ((algorithm, fields, basis, slaveType, nSlaves, ofsNbits), dst) ←
    (fmtStr.seq I).unpackFrom buf
  let dst ← parseDst ryu dst buf
  let slaves ← H.unpackAll nSlaves (buf.drop 22)
  return new c { algorithm, fields, basis, slaveType, nSlaves, ofsNbits, dst, slaves }

def serializeDst (data : List UInt8) : Option String → Except PyError (List UInt8)
  | none => .ok (ryu.msgPackInto data 14 (List.replicate 4 0))
  | some dst => do
    let oxmData ← ryu.header dst
    return ryu.msgPackInto data 14 oxmData

def serializeBody (a : NXActionBundleBase) : Except PyError (List UInt8) := do
  let nSlaves := a.slaves.length
  let (data, slaveOffset) ← packFrom ryu a.slaves [] 22
  let data := padNumbers ryu nSlaves data slaveOffset
  let packed ← fmtStr.pack (a.algorithm, a.fields, a.basis, a.slaveType, nSlaves, a.ofsNbits)
  let data := ryu.msgPackInto data 0 packed
  serializeDst ryu data a.dst

end Code

variable {ryu : Ryu} {c : Bundle} {a : NXActionBundleBase} {bs data : List UInt8} {dst : Option String}

structure Dst (ryu : Ryu) (dst : Option String) (h : List UInt8) : Prop where
  length : h.length = 4
  none : dst = none → h = List.replicate 4 0
  some : ∀ field, dst = some field → ryu.Named field h ∧ fromBytes h ≠ 0

theorem parseDst_append {h front : List UInt8} (hdst : Dst ryu dst h) (hfront : front.length = 14)
    (rest : List UInt8) : parseDst ryu (fromBytes h) (front ++ (h ++ rest)) = .ok dst := by
  cases dst with
  | none =>
    rw [hdst.none rfl, fromBytes_zeros]
    rfl
  | some field =>
    obtain ⟨hnamed, hne⟩ := hdst.some field rfl
    rw [parseDst, if_pos hne, List.drop_left' hfront, hnamed.readHeader]
    rfl

theorem serializeDst_eq {h : List UInt8} (hdst : Dst ryu dst h) (data : List UInt8) :
    serializeDst ryu data dst = .ok (ryu.msgPackInto data 14 h) := by
  cases dst with
  | none => rw [hdst.none rfl, serializeDst]
  | some field =>
    rw [serializeDst, (hdst.some field rfl).1.header]
    rfl

theorem serializeBody_eq_ok {h : List UInt8} (hdst : Dst ryu a.dst h)
    (hbs : a.serializeBody ryu = .ok bs) : ∃ packed tail,
      fmtStr.pack (a.algorithm, a.fields, a.basis, a.slaveType, a.slaves.length, a.ofsNbits) =
        .ok packed ∧ bs = packed ++ (h ++ tail) ∧
      (∀ rest, H.unpackAll a.slaves.length ((tail ++ rest).drop 4) = .ok a.slaves) ∧
      if a.slaves = [] then tail = [] else tail.length % 8 = 4 := by
  obtain ⟨⟨data, slaveOffset⟩, hslaves, hbs⟩ := bind_eq_ok hbs
  obtain ⟨packed, hpacked, hbs⟩ := bind_eq_ok hbs
  have hlen : packed.length = 14 := fmtStr.length_pack hpacked
  have hround := ryu.roundUp_eq 0 4
  rw [serializeDst_eq hdst] at hbs
  obtain rfl := Except.ok.inj hbs
  refine ⟨packed, ?_⟩
  cases hs : a.slaves with
  | nil =>
    rw [hs] at hslaves hpacked
    obtain ⟨rfl, rfl⟩ := Prod.mk.inj (Except.ok.inj hslaves)
    have hpad : padNumbers ryu 0 [] 22 = [] := by
      simp [padNumbers, hround]
    refine ⟨[], hpacked, ?_, fun rest ↦ rfl, rfl⟩
    rw [List.length_nil, hpad, ryu.msgPackInto_nil, ← hlen, ryu.msgPackInto_end, List.append_nil]
  | cons n ns =>
    rw [hs] at hslaves hpacked
    obtain ⟨slaves, hall, rfl, rfl⟩ := packFrom_nil hslaves
    obtain ⟨k, hk, height⟩ :=
      padNumbers_end ryu (n :: ns).length (List.replicate 22 0 ++ slaves)
    refine ⟨List.replicate 4 0 ++ (slaves ++ List.replicate k 0), hpacked, ?_, fun rest ↦ ?_, ?_⟩
    · have hfirst : ryu.msgPackInto (List.replicate 22 0 ++ slaves ++ List.replicate k 0) 0 packed =
          packed ++ (List.replicate 8 0 ++ (slaves ++ List.replicate k 0)) := by
        rw [ryu.msgPackInto_over _ _ _ (by simp [hlen]), List.take_zero, List.nil_append,
          Nat.zero_add, hlen, List.append_assoc]
        rfl
      have hsecond : (packed ++ (List.replicate 8 0 ++ (slaves ++ List.replicate k 0))).drop
          (14 + h.length) = List.replicate 4 0 ++ (slaves ++ List.replicate k 0) := by
        rw [hdst.length, ← hlen, ← List.drop_drop, List.drop_left]
        rfl
      rw [hk, hfirst, ryu.msgPackInto_over _ _ _ (by simp [hlen, hdst.length]; omega), hsecond,
        List.take_left' hlen, List.append_assoc]
    · rw [List.append_assoc, List.append_assoc]
      exact Format.unpackAll_append hall _
    · rw [if_neg (List.cons_ne_nil n ns), List.length_append, List.length_append, length_packAll hall,
        List.length_replicate, List.length_replicate]
      omega

theorem parser_append {h : List UInt8} (hdst : Dst ryu a.dst h)
    (hbs : a.serializeBody ryu = .ok bs) (rest : List UInt8) :
    parser ryu c (bs ++ rest) = .ok (new c { a with nSlaves := a.slaves.length }) := by
  obtain ⟨packed, tail, hpacked, rfl, hslaves, -⟩ := serializeBody_eq_ok hdst hbs
  have hlen : packed.length = 14 := fmtStr.length_pack hpacked
  have hnum : I.pack (fromBytes h) = .ok h := by
    have hlt := fromBytes_lt h
    have hback := toBytes_fromBytes h
    rw [hdst.length] at hlt hback
    exact (Format.num_pack_of_lt _ hlt).trans (congrArg Except.ok hback)
  have hboth := Format.seq_pack.mpr ⟨packed, h, hpacked, hnum, rfl⟩
  have hdrop : (packed ++ (h ++ (tail ++ rest))).drop 22 = (tail ++ rest).drop 4 := by
    have hsplit : 22 = packed.length + (h.length + 4) := by
      rw [hlen, hdst.length]
    rw [hsplit, ← List.drop_drop, List.drop_left, ← List.drop_drop, List.drop_left]
  rw [parser, List.append_assoc, List.append_assoc]
  have hread := (fmtStr.seq I).unpackFrom_append hboth (tail ++ rest)
  rw [List.append_assoc] at hread
  rw [hread, ok_bind]
  dsimp only
  rw [parseDst_append hdst hlen, ok_bind, hdrop, hslaves]
  rfl

/-- A bundle comes back if and only if its number of slaves is right, and nothing stands in it that
its class does not have. -/
theorem parser_serializeBody_iff {h : List UInt8} (hdst : Dst ryu a.dst h)
    (hbs : a.serializeBody ryu = .ok bs) (rest : List UInt8) : parser ryu c (bs ++ rest) = .ok a ↔
      a.nSlaves = a.slaves.length ∧ (c = .bundle → a.ofsNbits = 0 ∧ a.dst = none) := by
  rw [parser_append hdst hbs, Except.ok.injEq]
  obtain ⟨algorithm, fields, basis, slaveType, nSlaves, ofsNbits, dst, slaves⟩ := a
  cases c <;> simp [new, eq_comm]

theorem length_serializeBody {h : List UInt8} (hdst : Dst ryu a.dst h)
    (hbs : a.serializeBody ryu = .ok bs) : bs.length % 8 = if a.slaves = [] then 2 else 6 := by
  obtain ⟨packed, tail, hpacked, rfl, -, htail⟩ := serializeBody_eq_ok hdst hbs
  have hlen : packed.length = 14 := fmtStr.length_pack hpacked
  rw [List.length_append, List.length_append, hlen, hdst.length]
  split_ifs at htail ⊢ with hs
  · rw [htail]
    rfl
  · omega

end NXActionBundleBase

end NshSfc.NxSequences
