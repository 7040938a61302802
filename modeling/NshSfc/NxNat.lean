import NshSfc.Ofproto

namespace NshSfc.NxNat

open Library Python Ofproto

/-- An address of a range that is not given is the empty text. -/
structure NXActionNAT where
  flags : ℕ
  rangeIpv4Min : String := ""
  rangeIpv4Max : String := ""
  rangeIpv6Min : String := ""
  rangeIpv6Max : String := ""
  rangeProtoMin : Option ℕ := none
  rangeProtoMax : Option ℕ := none
deriving DecidableEq

namespace NXActionNAT

def fmtStr : Fmt (ℕ × ℕ) := indentedBy 2 (H.seq H)

def takeOptional {α : Type} (i len : ℕ) (toUser : List UInt8 → Except PyError α) (rangePresent : ℕ)
    (rest : List UInt8) : Except PyError (Option α × List UInt8) :=
  if rangePresent &&& 1 <<< i ≠ 0 then do
    let value ← toUser (rest.take len)
    return (some value, rest.drop len)
  else .ok (none, rest)

def packOptional (i : ℕ) (value : Option (Except PyError (List UInt8))) (s : ℕ × List UInt8) :
    Except PyError (ℕ × List UInt8) :=
  match value with
  | none => .ok s
  | some value => do
    let bs ← value
    return (s.1 ||| 1 <<< i, s.2 ++ bs)

section Code

variable (ryu : Ryu)

def parser (buf : List UInt8) : Except PyError NXActionNAT := do
  let (flags, rangePresent) ← fmtStr.unpackFrom buf
  let rest := buf.drop fmtStr.size
  let (rangeIpv4Min, rest) ← takeOptional 0 4 ryu.ipv4ToUser rangePresent rest
  let (rangeIpv4Max, rest) ← takeOptional 1 4 ryu.ipv4ToUser rangePresent rest
  let (rangeIpv6Min, rest) ← takeOptional 2 16 ryu.ipv6ToUser rangePresent rest
  let (rangeIpv6Max, rest) ← takeOptional 3 16 ryu.ipv6ToUser rangePresent rest
  let (rangeProtoMin, rest) ← takeOptional 4 2 (ryu.intToUser 2) rangePresent rest
  let (rangeProtoMax, _) ← takeOptional 5 2 (ryu.intToUser 2) rangePresent rest
  return {
    flags
    rangeIpv4Min := rangeIpv4Min.getD ""
    rangeIpv4Max := rangeIpv4Max.getD ""
    rangeIpv6Min := rangeIpv6Min.getD ""
    rangeIpv6Max := rangeIpv6Max.getD ""
    rangeProtoMin, rangeProtoMax }

def given (fromUser : String → Except PyError (List UInt8)) (text : String) :
    Option (Except PyError (List UInt8)) :=
  if text ≠ "" then some (fromUser text) else none

def givenInt (value : Option ℕ) : Option (Except PyError (List UInt8)) :=
  value.map fun n ↦ .ok (ryu.intFromUser 2 n)

def serializeBody (a : NXActionNAT) : Except PyError (List UInt8) := do
  let s ← packOptional 0 (given ryu.ipv4FromUser a.rangeIpv4Min) (0, [])
  let s ← packOptional 1 (given ryu.ipv4FromUser a.rangeIpv4Max) s
  let s ← packOptional 2 (given ryu.ipv6FromUser a.rangeIpv6Min) s
  let s ← packOptional 3 (given ryu.ipv6FromUser a.rangeIpv6Max) s
  let s ← packOptional 4 (givenInt ryu a.rangeProtoMin) s
  let (rangePresent, optionalData) ← packOptional 5 (givenInt ryu a.rangeProtoMax) s
  let packed ← fmtStr.pack (a.flags, rangePresent)
  let data := ryu.msgPackInto [] 0 packed
  return ryu.msgPackInto data data.length optionalData

end Code

section Options

variable {α : Type} {value : Option (Except PyError (List UInt8))} {s s' : ℕ × List UInt8}
  {bs rest : List UInt8} {i len present : ℕ}

def bit (i : ℕ) (b : Bool) : ℕ := if b then 1 <<< i else 0

def Packed (value : Option (Except PyError (List UInt8))) (bs : List UInt8) : Prop :=
  match value with
  | none => bs = []
  | some value => value = .ok bs

theorem packOptional_eq_ok (h : packOptional i value s = .ok s') :
    ∃ bs, Packed value bs ∧ s' = (s.1 ||| bit i value.isSome, s.2 ++ bs) := by
  cases value with
  | none =>
    obtain rfl := Except.ok.inj h
    exact ⟨[], rfl, by simp [bit]⟩
  | some value =>
    obtain ⟨bs, hbs, h⟩ := bind_eq_ok h
    exact ⟨bs, hbs, (Except.ok.inj h).symm⟩

theorem bits (b₀ b₁ b₂ b₃ b₄ b₅ : Bool) :
    let present := 0 ||| bit 0 b₀ ||| bit 1 b₁ ||| bit 2 b₂ ||| bit 3 b₃ ||| bit 4 b₄ ||| bit 5 b₅
    (present &&& 1 <<< 0 ≠ 0 ↔ b₀) ∧ (present &&& 1 <<< 1 ≠ 0 ↔ b₁) ∧
      (present &&& 1 <<< 2 ≠ 0 ↔ b₂) ∧ (present &&& 1 <<< 3 ≠ 0 ↔ b₃) ∧
      (present &&& 1 <<< 4 ≠ 0 ↔ b₄) ∧ (present &&& 1 <<< 5 ≠ 0 ↔ b₅) := by
  revert b₀ b₁ b₂ b₃ b₄ b₅
  decide

def Reads (value : Option (Except PyError (List UInt8))) (len : ℕ)
    (toUser : List UInt8 → Except PyError α) (a : Option α) : Prop :=
  match value, a with
  | none, none => True
  | some value, some a => ∀ bs, value = .ok bs → bs.length = len ∧ toUser bs = .ok a
  | _, _ => False

theorem takeOptional_append {toUser : List UInt8 → Except PyError α} {a : Option α}
    (hbit : present &&& 1 <<< i ≠ 0 ↔ value.isSome) (hbs : Packed value bs)
    (hread : Reads value len toUser a) (rest : List UInt8) :
    takeOptional i len toUser present (bs ++ rest) = .ok (a, rest) := by
  cases value with
  | none =>
    obtain rfl := hbs
    cases a with
    | none => exact if_neg (by simpa using hbit)
    | some a => cases hread
  | some value =>
    cases a with
    | none => cases hread
    | some a =>
      obtain ⟨hlen, hread⟩ := hread bs hbs
      rw [takeOptional, if_pos (hbit.mpr rfl), List.take_left' hlen, hread, List.drop_left' hlen]
      rfl

end Options

variable {ryu : Ryu} {a : NXActionNAT} {bs : List UInt8}

structure Known (ryu : Ryu) (a : NXActionNAT) : Prop where
  ipv4Min : a.rangeIpv4Min ≠ "" → ∃ bs, ryu.Ipv4 a.rangeIpv4Min bs
  ipv4Max : a.rangeIpv4Max ≠ "" → ∃ bs, ryu.Ipv4 a.rangeIpv4Max bs
  ipv6Min : a.rangeIpv6Min ≠ "" → ∃ bs, ryu.Ipv6 a.rangeIpv6Min bs
  ipv6Max : a.rangeIpv6Max ≠ "" → ∃ bs, ryu.Ipv6 a.rangeIpv6Max bs

def text (t : String) : Option String := if t ≠ "" then some t else none

theorem text_getD (t : String) : (text t).getD "" = t := by
  rw [text]
  split_ifs with ht
  · rfl
  · rw [not_not] at ht
    rw [ht]
    rfl

theorem reads_ipv4 {t : String} (h : t ≠ "" → ∃ bs, ryu.Ipv4 t bs) :
    Reads (given ryu.ipv4FromUser t) 4 ryu.ipv4ToUser (text t) := by
  rw [given, text]
  split_ifs with ht
  · obtain ⟨bs, haddr⟩ := h ht
    intro bs' hbs'
    rw [haddr.fromUser] at hbs'
    obtain rfl := Except.ok.inj hbs'
    exact ⟨haddr.length, haddr.toUser⟩
  · trivial

theorem reads_ipv6 {t : String} (h : t ≠ "" → ∃ bs, ryu.Ipv6 t bs) :
    Reads (given ryu.ipv6FromUser t) 16 ryu.ipv6ToUser (text t) := by
  rw [given, text]
  split_ifs with ht
  · obtain ⟨bs, haddr⟩ := h ht
    intro bs' hbs'
    rw [haddr.fromUser] at hbs'
    obtain rfl := Except.ok.inj hbs'
    exact ⟨haddr.length, haddr.toUser⟩
  · trivial

theorem reads_int (value : Option ℕ) :
    Reads (givenInt ryu value) 2 (ryu.intToUser 2) (value.map (· % 2 ^ 16)) := by
  cases value with
  | none => trivial
  | some n =>
    intro bs hbs
    obtain rfl := Except.ok.inj hbs
    have hlong : ¬ (toBytes 2 n).length < 2 := by simp
    rw [ryu.intFromUser_eq]
    refine ⟨length_toBytes 2 n, ?_⟩
    rw [ryu.intToUser_eq, if_neg hlong, List.take_of_length_le (length_toBytes 2 n).le,
      fromBytes_toBytes]
    rfl

def optionals (ryu : Ryu) (a : NXActionNAT) : List (Option (Except PyError (List UInt8))) :=
  [given ryu.ipv4FromUser a.rangeIpv4Min, given ryu.ipv4FromUser a.rangeIpv4Max,
    given ryu.ipv6FromUser a.rangeIpv6Min, given ryu.ipv6FromUser a.rangeIpv6Max,
    givenInt ryu a.rangeProtoMin, givenInt ryu a.rangeProtoMax]

theorem serializeBody_eq_ok (hbs : a.serializeBody ryu = .ok bs) :
    ∃ packed pieces present, fmtStr.pack (a.flags, present) = .ok packed ∧
      List.Forall₂ Packed (optionals ryu a) pieces ∧ bs = packed ++ pieces.flatten ∧
      ∀ i (h : i < 6), present &&& 1 <<< i ≠ 0 ↔ ((optionals ryu a).get ⟨i, h⟩).isSome := by
  obtain ⟨s, h₀, hbs⟩ := bind_eq_ok hbs
  obtain ⟨bs₀, hbs₀, rfl⟩ := packOptional_eq_ok h₀
  obtain ⟨s, h₁, hbs⟩ := bind_eq_ok hbs
  obtain ⟨bs₁, hbs₁, rfl⟩ := packOptional_eq_ok h₁
  obtain ⟨s, h₂, hbs⟩ := bind_eq_ok hbs
  obtain ⟨bs₂, hbs₂, rfl⟩ := packOptional_eq_ok h₂
  obtain ⟨s, h₃, hbs⟩ := bind_eq_ok hbs
  obtain ⟨bs₃, hbs₃, rfl⟩ := packOptional_eq_ok h₃
  obtain ⟨s, h₄, hbs⟩ := bind_eq_ok hbs
  obtain ⟨bs₄, hbs₄, rfl⟩ := packOptional_eq_ok h₄
  obtain ⟨s, h₅, hbs⟩ := bind_eq_ok hbs
  obtain ⟨bs₅, hbs₅, rfl⟩ := packOptional_eq_ok h₅
  dsimp only at hbs
  obtain ⟨packed, hpacked, hbs⟩ := bind_eq_ok hbs
  obtain rfl := Except.ok.inj hbs
  have hbits := bits (given ryu.ipv4FromUser a.rangeIpv4Min).isSome
    (given ryu.ipv4FromUser a.rangeIpv4Max).isSome (given ryu.ipv6FromUser a.rangeIpv6Min).isSome
    (given ryu.ipv6FromUser a.rangeIpv6Max).isSome (givenInt ryu a.rangeProtoMin).isSome
    (givenInt ryu a.rangeProtoMax).isSome
  refine ⟨packed, [bs₀, bs₁, bs₂, bs₃, bs₄, bs₅], _, hpacked, ?_, ?_, fun i hi ↦ ?_⟩
  · exact .cons hbs₀ (.cons hbs₁ (.cons hbs₂ (.cons hbs₃ (.cons hbs₄ (.cons hbs₅ .nil)))))
  · rw [ryu.msgPackInto_nil, ryu.msgPackInto_end]
    simp
  · obtain ⟨hb₀, hb₁, hb₂, hb₃, hb₄, hb₅⟩ := hbits
    match i, hi with
    | 0, _ => exact hb₀
    | 1, _ => exact hb₁
    | 2, _ => exact hb₂
    | 3, _ => exact hb₃
    | 4, _ => exact hb₄
    | 5, _ => exact hb₅

theorem parser_append (ha : a.Known ryu) (hbs : a.serializeBody ryu = .ok bs) (rest : List UInt8) :
    parser ryu (bs ++ rest) = .ok { a with
      rangeProtoMin := a.rangeProtoMin.map (· % 2 ^ 16)
      rangeProtoMax := a.rangeProtoMax.map (· % 2 ^ 16) } := by
  obtain ⟨packed, pieces, present, hpacked, hpieces, rfl, hbits⟩ := serializeBody_eq_ok hbs
  obtain _ | ⟨h₀, _ | ⟨h₁, _ | ⟨h₂, _ | ⟨h₃, _ | ⟨h₄, _ | ⟨h₅, _ | _⟩⟩⟩⟩⟩⟩ := hpieces
  rw [List.append_assoc, parser, fmtStr.unpackFrom_append hpacked, ok_bind]
  dsimp only
  rw [fmtStr.drop_pack hpacked]
  simp only [List.flatten_cons, List.flatten_nil, List.append_nil, List.append_assoc]
  rw [takeOptional_append (hbits 0 (by decide)) h₀ (reads_ipv4 ha.ipv4Min), ok_bind]
  dsimp only
  rw [takeOptional_append (hbits 1 (by decide)) h₁ (reads_ipv4 ha.ipv4Max), ok_bind]
  dsimp only
  rw [takeOptional_append (hbits 2 (by decide)) h₂ (reads_ipv6 ha.ipv6Min), ok_bind]
  dsimp only
  rw [takeOptional_append (hbits 3 (by decide)) h₃ (reads_ipv6 ha.ipv6Max), ok_bind]
  dsimp only
  rw [takeOptional_append (hbits 4 (by decide)) h₄ (reads_int a.rangeProtoMin), ok_bind]
  dsimp only
  rw [takeOptional_append (hbits 5 (by decide)) h₅ (reads_int a.rangeProtoMax), ok_bind]
  dsimp only
  rw [text_getD, text_getD, text_getD, text_getD]
  rfl

/-- The ranges come back if and only if the ports have no more than two bytes. -/
theorem parser_serializeBody_iff (ha : a.Known ryu) (hbs : a.serializeBody ryu = .ok bs)
    (rest : List UInt8) : parser ryu (bs ++ rest) = .ok a ↔
      (∀ n ∈ a.rangeProtoMin, n < 2 ^ 16) ∧ ∀ n ∈ a.rangeProtoMax, n < 2 ^ 16 := by
  have hmod (o : Option ℕ) : o.map (· % 2 ^ 16) = o ↔ ∀ n ∈ o, n < 2 ^ 16 := by
    cases o with
    | none => simp
    | some n => simp
  rw [parser_append ha hbs, Except.ok.injEq, ← hmod, ← hmod]
  obtain ⟨flags, v4Min, v4Max, v6Min, v6Max, protoMin, protoMax⟩ := a
  simp

def optionalSize (a : NXActionNAT) : ℕ :=
  (if a.rangeIpv4Min ≠ "" then 4 else 0) + (if a.rangeIpv4Max ≠ "" then 4 else 0) +
    (if a.rangeIpv6Min ≠ "" then 16 else 0) + (if a.rangeIpv6Max ≠ "" then 16 else 0) +
    (if a.rangeProtoMin.isSome then 2 else 0) + (if a.rangeProtoMax.isSome then 2 else 0)

theorem length_given {fromUser : String → Except PyError (List UInt8)} {t : String} {len : ℕ}
    (h : t ≠ "" → ∀ bs, fromUser t = .ok bs → bs.length = len) (hbs : Packed (given fromUser t) bs) :
    bs.length = if t ≠ "" then len else 0 := by
  rw [given] at hbs
  split_ifs at hbs ⊢ with ht
  · exact h ht bs hbs
  · exact congrArg List.length hbs

theorem length_givenInt {value : Option ℕ} (hbs : Packed (givenInt ryu value) bs) :
    bs.length = if value.isSome then 2 else 0 := by
  cases value with
  | none => exact congrArg List.length hbs
  | some n =>
    obtain rfl := Except.ok.inj hbs
    rw [ryu.intFromUser_eq]
    exact length_toBytes 2 n

theorem length_serializeBody (ha : a.Known ryu) (hbs : a.serializeBody ryu = .ok bs) :
    bs.length = 6 + a.optionalSize := by
  have hipv4 {t : String} (h : t ≠ "" → ∃ bs, ryu.Ipv4 t bs) (ht : t ≠ "") (bs : List UInt8)
      (hbs : ryu.ipv4FromUser t = .ok bs) : bs.length = 4 := by
    obtain ⟨bs', haddr⟩ := h ht
    rw [haddr.fromUser] at hbs
    rw [← Except.ok.inj hbs, haddr.length]
  have hipv6 {t : String} (h : t ≠ "" → ∃ bs, ryu.Ipv6 t bs) (ht : t ≠ "") (bs : List UInt8)
      (hbs : ryu.ipv6FromUser t = .ok bs) : bs.length = 16 := by
    obtain ⟨bs', haddr⟩ := h ht
    rw [haddr.fromUser] at hbs
    rw [← Except.ok.inj hbs, haddr.length]
  obtain ⟨packed, pieces, present, hpacked, hpieces, rfl, -⟩ := serializeBody_eq_ok hbs
  obtain _ | ⟨h₀, _ | ⟨h₁, _ | ⟨h₂, _ | ⟨h₃, _ | ⟨h₄, _ | ⟨h₅, _ | _⟩⟩⟩⟩⟩⟩ := hpieces
  have hlen : packed.length = 6 := fmtStr.length_pack hpacked
  simp only [List.length_append, List.flatten_cons, List.flatten_nil, List.length_nil]
  rw [hlen, length_given (hipv4 ha.ipv4Min) h₀, length_given (hipv4 ha.ipv4Max) h₁,
    length_given (hipv6 ha.ipv6Min) h₂, length_given (hipv6 ha.ipv6Max) h₃, length_givenInt h₄,
    length_givenInt h₅, optionalSize]
  simp only [Nat.add_assoc, Nat.add_zero]

end NXActionNAT

end NshSfc.NxNat
