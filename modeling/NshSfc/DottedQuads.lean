import NshSfc.Library.Layout
import NshSfc.Python
import Mathlib.Data.List.Forall2

namespace NshSfc.DottedQuads

open Library Python

structure Octet (p : List Char) (b : UInt8) : Prop where
  nonempty : p ≠ []
  decimal : ∀ c ∈ p, c.isDigit
  value : Nat.ofDigitChars 10 p 0 = b.toNat

def parts (s : String) : List (List Char) := s.toList.splitOn '.'

structure Quad (s : String) (q : List UInt8) : Prop where
  octets : List.Forall₂ Octet (parts s) q
  four : q.length = 4

/-- `ipv4_to_int` accepts the string exactly if it is a dotted quad. The value has the octets as its
big-endian bytes, and no other address has it. -/
structure Exact (s : String) : Prop where
  accepts : (∃ n, ipv4ToInt (some s) = .ok n) ↔ ∃ q, Quad s q
  bytes : ∀ n q, ipv4ToInt (some s) = .ok n → Quad s q →
    0 ≤ n ∧ n < 2 ^ 32 ∧ toBytes 4 n.toNat = q
  apart : ∀ s' q q', Quad s q → Quad s' q' → q ≠ q' → ipv4ToInt (some s) ≠ ipv4ToInt (some s')

/-- Where the string has four parts that `int` reads, they are decimal octets. -/
def Plain (s : String) : Prop :=
  (parts s).length = 4 → (∀ p ∈ parts s, ∃ n, intOfString p = .ok n) → ∀ p ∈ parts s, ∃ b, Octet p b

section Octets

variable {s : String} {p : List Char} {b : UInt8} {ps : List (List Char)} {q : List UInt8}

theorem Octet.read (h : Octet p b) : intOfString p = .ok (b.toNat : ℕ) := by
  rw [intOfString_decimal h.nonempty h.decimal, h.value]

theorem lor_octet (n : ℕ) (b : UInt8) : Int.lor ((n : Int) * 2 ^ 8) b.toNat = (n * 2 ^ 8 + b.toNat : ℕ) := by
  have hor : n * 2 ^ 8 + b.toNat = n * 2 ^ 8 ||| b.toNat := by
    rw [Nat.mul_comm, Nat.two_pow_add_eq_or_of_lt b.toNat_lt]
  rw [hor]
  rfl

theorem ipv4Octets_eq (h : List.Forall₂ Octet ps q) (n : ℕ) :
    ipv4Octets n ps = .ok (n * 256 ^ q.length + fromBytes q : ℕ) := by
  induction h generalizing n with
  | nil => simp [ipv4Octets, fromBytes]
  | @cons p b ps q hp _ ih =>
    have hread : ipv4Octets n (p :: ps) = ipv4Octets (Int.lor ((n : Int) * 2 ^ 8) b.toNat) ps := by
      rw [ipv4Octets, hp.read]
      rfl
    rw [hread, lor_octet, ih, fromBytes, List.length_cons, pow_succ]
    congr 2
    ring

theorem ipv4Octets_ok_iff {i : Int} :
    (∃ n, ipv4Octets i ps = .ok n) ↔ ∀ p ∈ ps, ∃ n, intOfString p = .ok n := by
  induction ps generalizing i with
  | nil => simp [ipv4Octets]
  | cons p ps ih =>
    rw [List.forall_mem_cons, ipv4Octets]
    cases hp : intOfString p with
    | ok m =>
      have hrest := @ih (Int.lor (i * 2 ^ 8) m)
      exact ⟨fun h ↦ ⟨⟨m, rfl⟩, hrest.mp h⟩, fun h ↦ hrest.mpr h.2⟩
    | error e =>
      constructor
      · intro h
        obtain ⟨n, hn⟩ := h
        cases hn
      · intro h
        obtain ⟨⟨n, hn⟩, -⟩ := h
        cases hn

theorem ipv4ToInt_ok_iff : (∃ n, ipv4ToInt (some s) = .ok n) ↔
    (parts s).length = 4 ∧ ∀ p ∈ parts s, ∃ n, intOfString p = .ok n := by
  rw [← ipv4Octets_ok_iff (i := 0)]
  unfold ipv4ToInt parts
  by_cases h : (s.toList.splitOn '.').length = 4 <;> simp [h]

example : ipv4ToInt (some " 1_0.+0.0.٤") = .ok 0x0A000004 := by decide

theorem Quad.length (h : Quad s q) : (parts s).length = 4 := h.octets.length_eq.trans h.four

theorem Quad.value (h : Quad s q) : ipv4ToInt (some s) = .ok (fromBytes q : ℕ) := by
  have hread := ipv4Octets_eq h.octets 0
  rw [Nat.zero_mul, Nat.zero_add, Nat.cast_zero] at hread
  have hlen : (s.toList.splitOn '.').length = 4 := h.length
  rw [ipv4ToInt]
  simp only [hlen, if_true]
  exact hread

example : ipv4ToInt (some "10.0.0.254") = .ok 0x0A0000FE := by decide

theorem octets_iff : (∃ q, List.Forall₂ Octet ps q) ↔ ∀ p ∈ ps, ∃ b, Octet p b := by
  induction ps with
  | nil => simp
  | cons p ps ih =>
    rw [List.forall_mem_cons, ← ih]
    constructor
    · intro h
      obtain ⟨_, h⟩ := h
      cases h with
      | cons hp hps => exact ⟨⟨_, hp⟩, _, hps⟩
    · intro h
      obtain ⟨⟨b, hb⟩, q, hq⟩ := h
      exact ⟨b :: q, .cons hb hq⟩

theorem quad_iff : (∃ q, Quad s q) ↔ (parts s).length = 4 ∧ ∀ p ∈ parts s, ∃ b, Octet p b := by
  rw [← octets_iff]
  constructor
  · intro h
    obtain ⟨q, hq⟩ := h
    exact ⟨hq.length, q, hq.octets⟩
  · intro h
    obtain ⟨hlen, q, hq⟩ := h
    exact ⟨q, hq, hq.length_eq.symm.trans hlen⟩

end Octets

section Address

variable {s : String} {p : List Char} {b : UInt8} {ps : List (List Char)} {q : List UInt8}

def octet (p : List Char) : Option UInt8 :=
  if p ≠ [] ∧ p.all Char.isDigit ∧ Nat.ofDigitChars 10 p 0 < 256 then
    some (UInt8.ofNat (Nat.ofDigitChars 10 p 0))
  else none

theorem octet_eq_some : octet p = some b ↔ Octet p b := by
  unfold octet
  constructor
  · intro h
    obtain ⟨⟨hne, hdigits, hlt⟩, hb⟩ := Option.ite_none_right_eq_some.mp h
    refine ⟨hne, List.all_eq_true.mp hdigits, ?_⟩
    rw [← Option.some.inj hb, UInt8.toNat_ofNat_of_lt' hlt]
  · intro h
    have hlt := b.toNat_lt
    rw [if_pos ⟨h.nonempty, List.all_eq_true.mpr h.decimal, by rw [h.value]; omega⟩, h.value,
      UInt8.ofNat_toNat]

theorem mapM_octet_eq_some : ps.mapM octet = some q ↔ List.Forall₂ Octet ps q := by
  induction ps generalizing q with
  | nil => simp [eq_comm]
  | cons p ps ih =>
    simp only [List.mapM_cons, Option.bind_eq_bind, Option.bind_eq_some_iff, octet_eq_some, ih,
      Option.pure_def, Option.some.injEq]
    constructor
    · rintro ⟨b, hb, q', hq, rfl⟩
      exact .cons hb hq
    · rintro (_ | ⟨hb, hq⟩)
      exact ⟨_, hb, _, hq, rfl⟩

def address (s : String) : Option Int :=
  if (parts s).length = 4 then ((parts s).mapM octet).map fun q ↦ (fromBytes q : Int) else none

theorem address_eq_some {n : Int} :
    address s = some n ↔ ∃ q, Quad s q ∧ n = (fromBytes q : ℕ) := by
  rw [address, Option.ite_none_right_eq_some]
  simp only [Option.map_eq_some_iff, mapM_octet_eq_some]
  constructor
  · rintro ⟨hlen, q, hq, rfl⟩
    exact ⟨q, ⟨hq, hq.length_eq.symm.trans hlen⟩, rfl⟩
  · rintro ⟨q, hq, rfl⟩
    exact ⟨hq.length, q, hq.octets, rfl⟩

theorem ipv4ToInt_of_address {n : Int} (h : address s = some n) : ipv4ToInt (some s) = .ok n := by
  obtain ⟨q, hq, rfl⟩ := address_eq_some.mp h
  exact hq.value

theorem address_lt {n : Int} (h : address s = some n) : 0 ≤ n ∧ n < 2 ^ 32 := by
  obtain ⟨q, hq, rfl⟩ := address_eq_some.mp h
  have hlt := fromBytes_lt q
  rw [hq.four] at hlt
  omega

end Address

section Exact

variable {s s' : String} {q q' : List UInt8}

theorem Quad.bytes (h : Quad s q) : toBytes 4 (fromBytes q) = q := by
  have hbytes := toBytes_fromBytes q
  rwa [h.four] at hbytes

theorem Quad.apart (h : Quad s q) (h' : Quad s' q') (hne : q ≠ q') :
    ipv4ToInt (some s) ≠ ipv4ToInt (some s') := by
  rw [h.value, h'.value]
  intro heq
  have hvalue : fromBytes q = fromBytes q' := Int.ofNat_inj.mp (Except.ok.inj heq)
  exact hne (h.bytes.symm.trans ((congrArg (toBytes 4) hvalue).trans h'.bytes))

/-- `ipv4_to_int` is exact on a string unless the string has four parts that `int` reads, of which
one is not a decimal octet. -/
theorem exact_iff (s : String) : Exact s ↔ Plain s := by
  constructor
  · intro h hlen hread
    exact (quad_iff.mp (h.accepts.mp (ipv4ToInt_ok_iff.mpr ⟨hlen, hread⟩))).2
  · intro h
    refine ⟨⟨fun hok ↦ ?_, fun hquad ↦ ?_⟩, fun n q hn hq ↦ ?_, fun s' q q' hq hq' ↦ hq.apart hq'⟩
    · obtain ⟨hlen, hread⟩ := ipv4ToInt_ok_iff.mp hok
      exact quad_iff.mpr ⟨hlen, h hlen hread⟩
    · obtain ⟨q, hq⟩ := hquad
      exact ⟨_, hq.value⟩
    · obtain rfl : ((fromBytes q : ℕ) : Int) = n := Except.ok.inj (hq.value.symm.trans hn)
      have hlt := fromBytes_lt q
      rw [hq.four] at hlt
      refine ⟨Int.natCast_nonneg _, by omega, ?_⟩
      rw [Int.toNat_natCast, hq.bytes]

/-- The last part is out of range, and the string is read as another address. -/
theorem octet_out_of_range : ¬ Exact "1.2.3.256" ∧
    ipv4ToInt (some "1.2.3.256") = ipv4ToInt (some "1.2.3.0") := by
  refine ⟨fun h ↦ ?_, by decide⟩
  have hok : ipv4ToInt (some "1.2.3.256") = .ok 0x01020300 := by decide
  obtain ⟨-, hoctets⟩ := quad_iff.mp (h.accepts.mp ⟨_, hok⟩)
  obtain ⟨b, hb⟩ := hoctets "256".toList (by decide)
  have hvalue : 256 = b.toNat := hb.value
  have hlt := b.toNat_lt
  omega

end Exact

end NshSfc.DottedQuads
