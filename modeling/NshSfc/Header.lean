import NshSfc.Library.Layout
import NshSfc.Python

namespace NshSfc.Header

open Library Python

structure Nsh where
  ver : ℕ
  O : ℕ
  ttl : ℕ
  length : ℕ
  md : ℕ
  np : ℕ
  spi : ℕ
  si : ℕ
deriving DecidableEq

def unpackFrom : List UInt8 → Except PyError (ℕ × ℕ × ℕ × ℕ × ℕ)
  | b₀ :: b₁ :: b₂ :: b₃ :: b₄ :: b₅ :: b₆ :: b₇ :: _ =>
    .ok (b₀.toNat, b₁.toNat, b₂.toNat, b₃.toNat, fromBytes [b₄, b₅, b₆, b₇])
  | _ => .error .structError

def parser (buf : List UInt8) : Except PyError (Nsh × ℕ × List UInt8) := do
  let (ver_O_U_ttl4, ttl2_len, U4_md, np, spisi) ← unpackFrom buf
  let ver := ver_O_U_ttl4 >>> 6
  let O := (ver_O_U_ttl4 &&& 0x20) >>> 5
  let ttl := fromBytes (toBytes 1 (ver_O_U_ttl4 &&& 0x0f) ++ toBytes 1 (ttl2_len &&& 0xc0)) >>> 6
  let length := ttl2_len &&& 0x3f
  let md := U4_md &&& 0x0f
  let spi := (spisi &&& 0xffffff00) >>> 8
  let si := spisi &&& 0x000000ff
  return (⟨ver, O, ttl, length, md, np, spi, si⟩, np, buf.drop (4 * length))

/-- The widths of the fields in the diagram of the class: version, O, U, TTL, length, U, MD type,
next protocol, SPI and service index. -/
def diagram : List ℕ := [2, 1, 1, 6, 6, 4, 4, 8, 24, 8]

def ofFields : List ℕ → Option Nsh
  | [ver, O, _, ttl, length, _, md, np, spi, si] => some ⟨ver, O, ttl, length, md, np, spi, si⟩
  | _ => none

section Masks

theorem and_flag (b : UInt8) : (b.toNat &&& 0x20) >>> 5 = b.toNat / 2 ^ 5 % 2 := by
  rw [Nat.shiftRight_and_distrib, Nat.shiftRight_eq_div_pow]
  exact Nat.and_two_pow_sub_one_eq_mod _ 1

theorem and_ttl (b₀ b₁ : UInt8) :
    fromBytes (toBytes 1 (b₀.toNat &&& 0x0f) ++ toBytes 1 (b₁.toNat &&& 0xc0)) >>> 6 =
      b₀.toNat % 2 ^ 4 * 4 + b₁.toNat / 2 ^ 6 := by
  have hlow : b₀.toNat &&& 0x0f = b₀.toNat % 2 ^ 4 := Nat.and_two_pow_sub_one_eq_mod _ 4
  have hhigh : (b₁.toNat &&& 0xc0) >>> 6 = b₁.toNat / 2 ^ 6 % 2 ^ 2 := by
    rw [Nat.shiftRight_and_distrib, Nat.shiftRight_eq_div_pow]
    exact Nat.and_two_pow_sub_one_eq_mod _ 2
  have hle : b₁.toNat &&& 0xc0 ≤ 0xc0 := Nat.and_le_right
  have hb := b₁.toNat_lt
  rw [Nat.shiftRight_eq_div_pow] at hhigh
  simp only [toBytes, pow_zero, Nat.div_one, fromBytes, List.cons_append, List.nil_append,
    List.length_cons, List.length_nil, UInt8.toNat_ofNat', hlow, Nat.shiftRight_eq_div_pow]
  omega

theorem and_spi (n : ℕ) : (n &&& 0xffffff00) >>> 8 = n / 2 ^ 8 % 2 ^ 24 := by
  rw [Nat.shiftRight_and_distrib, Nat.shiftRight_eq_div_pow]
  exact Nat.and_two_pow_sub_one_eq_mod _ 24

end Masks

section Reading

variable (b₀ b₁ b₂ b₃ b₄ b₅ b₆ b₇ : UInt8) (rest : List UInt8)

theorem parser_cons : parser (b₀ :: b₁ :: b₂ :: b₃ :: b₄ :: b₅ :: b₆ :: b₇ :: rest) =
    .ok (⟨b₀.toNat / 2 ^ 6, b₀.toNat / 2 ^ 5 % 2, b₀.toNat % 2 ^ 4 * 4 + b₁.toNat / 2 ^ 6,
        b₁.toNat % 2 ^ 6, b₂.toNat % 2 ^ 4, b₃.toNat, fromBytes [b₄, b₅, b₆, b₇] / 2 ^ 8 % 2 ^ 24,
        fromBytes [b₄, b₅, b₆, b₇] % 2 ^ 8⟩, b₃.toNat,
      (b₀ :: b₁ :: b₂ :: b₃ :: b₄ :: b₅ :: b₆ :: b₇ :: rest).drop (4 * (b₁.toNat % 2 ^ 6))) := by
  have hver : b₀.toNat >>> 6 = b₀.toNat / 2 ^ 6 := Nat.shiftRight_eq_div_pow _ 6
  have hlength : b₁.toNat &&& 0x3f = b₁.toNat % 2 ^ 6 := Nat.and_two_pow_sub_one_eq_mod _ 6
  have hmd : b₂.toNat &&& 0x0f = b₂.toNat % 2 ^ 4 := Nat.and_two_pow_sub_one_eq_mod _ 4
  have hsi : fromBytes [b₄, b₅, b₆, b₇] &&& 0xff = fromBytes [b₄, b₅, b₆, b₇] % 2 ^ 8 :=
    Nat.and_two_pow_sub_one_eq_mod _ 8
  rw [← hver, ← and_flag, ← and_ttl, ← hlength, ← hmd, ← and_spi, ← hsi]
  rfl

theorem fromBytes_header : fromBytes [b₀, b₁, b₂, b₃, b₄, b₅, b₆, b₇] =
    b₀.toNat * 2 ^ 56 + b₁.toNat * 2 ^ 48 + b₂.toNat * 2 ^ 40 + b₃.toNat * 2 ^ 32 +
      fromBytes [b₄, b₅, b₆, b₇] := by
  simp only [fromBytes, List.length_cons, List.length_nil]
  ring

end Reading

/-- The parser reads the diagram. -/
theorem parser_reads {buf : List UInt8} (h : 8 ≤ buf.length) : ∃ header,
    ofFields (unpack diagram (fromBytes (buf.take 8))) = some header ∧
      parser buf = .ok (header, header.np, buf.drop (4 * header.length)) := by
  obtain ⟨b₀, b₁, b₂, b₃, b₄, b₅, b₆, b₇, rest, rfl⟩ : ∃ b₀ b₁ b₂ b₃ b₄ b₅ b₆ b₇ rest,
      buf = b₀ :: b₁ :: b₂ :: b₃ :: b₄ :: b₅ :: b₆ :: b₇ :: rest := by
    rcases buf with _ | ⟨b₀, _ | ⟨b₁, _ | ⟨b₂, _ | ⟨b₃, _ | ⟨b₄, _ | ⟨b₅, _ | ⟨b₆, _ | ⟨b₇, rest⟩⟩⟩⟩⟩⟩⟩⟩
    all_goals first | exact ⟨b₀, b₁, b₂, b₃, b₄, b₅, b₆, b₇, rest, rfl⟩ | simp at h
  refine ⟨_, ?_, parser_cons b₀ b₁ b₂ b₃ b₄ b₅ b₆ b₇ rest⟩
  have h₀ := b₀.toNat_lt
  have h₁ := b₁.toNat_lt
  have h₂ := b₂.toNat_lt
  have h₃ := b₃.toNat_lt
  have hword : fromBytes [b₄, b₅, b₆, b₇] < 256 ^ 4 := fromBytes_lt [b₄, b₅, b₆, b₇]
  simp only [List.take_succ_cons, List.take_zero, fromBytes_header b₀ b₁ b₂ b₃ b₄ b₅ b₆ b₇]
  generalize fromBytes [b₄, b₅, b₆, b₇] = spisi at *
  simp only [diagram, unpack, ofFields, List.sum_cons, List.sum_nil, Option.some.injEq, Nsh.mk.injEq]
  refine ⟨?_, ?_, ?_, ?_, ?_, ?_, ?_, ?_⟩ <;> omega

theorem parser_short {buf : List UInt8} (h : buf.length < 8) : parser buf = .error .structError := by
  rcases buf with _ | ⟨b₀, _ | ⟨b₁, _ | ⟨b₂, _ | ⟨b₃, _ | ⟨b₄, _ | ⟨b₅, _ | ⟨b₆, _ | ⟨b₇, rest⟩⟩⟩⟩⟩⟩⟩⟩
  all_goals first | rfl | (simp only [List.length_cons] at h; omega)

end NshSfc.Header
