import Mathlib.Data.List.Induction
import Mathlib.Data.List.Nodup
import Mathlib.Data.Nat.Digits.Defs

namespace NshSfc.Library

def numeral (n : ℕ) : String := toString (n + 1)

def numerals (n : ℕ) : List String := (List.range n).map numeral

section Numeral

variable {a b a' b' d n : ℕ}

theorem numeral_toList (a : ℕ) : (numeral a).toList = Nat.toDigits 10 (a + 1) := by
  simp [numeral]

theorem toDigits_inj (h : Nat.toDigits 10 a = Nat.toDigits 10 b) : a = b := by
  have hval := congrArg (fun l ↦ Nat.ofDigitChars 10 l 0) h
  simpa using hval

theorem numeral_inj (h : numeral a = numeral b) : a = b := by
  have hdigits := congrArg String.toList h
  rw [numeral_toList, numeral_toList] at hdigits
  exact Nat.succ_injective (toDigits_inj hdigits)

theorem numeral_of_lt (ha : a < 9) : numeral a = String.singleton (Nat.digitChar (a + 1)) :=
  Nat.repr_of_lt (by omega)

theorem numeral_ne_singleton (ha : 9 ≤ a) (c : Char) : numeral a ≠ String.singleton c := by
  intro h
  have hdigits := congrArg (fun s ↦ s.toList.length) h
  simp only [numeral_toList, String.toList_singleton, List.length_singleton] at hdigits
  have hle : a + 1 < 10 ^ 1 :=
    (Nat.length_toDigits_le_iff (by decide) Nat.one_pos).mp hdigits.le
  omega

theorem digitChar_inj (ha : a < 10) (hb : b < 10) (h : Nat.digitChar a = Nat.digitChar b) :
    a = b := by
  have hdigits : Nat.toDigits 10 a = Nat.toDigits 10 b := by
    rw [Nat.toDigits_of_lt_base ha, Nat.toDigits_of_lt_base hb, h]
  exact toDigits_inj hdigits

theorem value_append (a b : ℕ) :
    Nat.ofDigitChars 10 (Nat.toDigits 10 a ++ Nat.toDigits 10 b) 0 =
      10 ^ (Nat.toDigits 10 b).length * a + b := by
  rw [Nat.ofDigitChars_append, Nat.ofDigitChars_ten_toDigits, Nat.ofDigitChars_eq_ofDigitChars_zero,
    Nat.ofDigitChars_ten_toDigits]

theorem toDigits_of_append {D E : List Char} (h : Nat.toDigits 10 n = D ++ E) (hD : D ≠ []) :
    Nat.toDigits 10 (n / 10 ^ E.length) = D := by
  induction E using List.reverseRecOn generalizing n with
  | nil => simpa using h
  | append_singleton E c ih =>
    have hlen : 10 ≤ n := by
      by_contra hlt
      have hshort := congrArg List.length h
      rw [Nat.toDigits_of_lt_base (not_le.mp hlt)] at hshort
      simp only [List.length_singleton, List.length_append] at hshort
      have hpos := List.length_pos_iff.mpr hD
      omega
    rw [Nat.toDigits_of_base_le (by decide) hlen, ← List.append_assoc] at h
    rw [List.length_append, List.length_singleton, pow_succ', ← Nat.div_div_eq_div_mul]
    exact ih (List.append_inj_left' h rfl)

theorem numeral_append_overlap (h : numeral a ++ numeral b = numeral a' ++ numeral b') (hlt : a < a') :
    ∃ d, 0 < d ∧ numeral a' = numeral a ++ toString d ∧ 10 * d ≤ b := by
  have hdigits := congrArg String.toList h
  simp only [String.toList_append, numeral_toList] at hdigits
  obtain ⟨D, hD, hrest⟩ : ∃ D, Nat.toDigits 10 (a' + 1) = Nat.toDigits 10 (a + 1) ++ D ∧
      Nat.toDigits 10 (b + 1) = D ++ Nat.toDigits 10 (b' + 1) := by
    rcases List.append_eq_append_iff.mp hdigits with ⟨D, hD, hrest⟩ | ⟨D, hD, -⟩
    · exact ⟨D, hD, hrest⟩
    · have hquot := toDigits_inj (toDigits_of_append hD Nat.toDigits_ne_nil)
      have hle := Nat.div_le_self (a + 1) (10 ^ D.length)
      omega
  have hne : D ≠ [] := by
    rintro rfl
    rw [List.append_nil] at hD
    have heq := toDigits_inj hD
    omega
  set d := (b + 1) / 10 ^ (Nat.toDigits 10 (b' + 1)).length with hd
  have hDd : Nat.toDigits 10 d = D := toDigits_of_append hrest hne
  have hvalue : b + 1 = 10 ^ (Nat.toDigits 10 (b' + 1)).length * d + (b' + 1) := by
    rw [← value_append, hDd, ← hrest, Nat.ofDigitChars_ten_toDigits]
  have hpow : 10 ≤ 10 ^ (Nat.toDigits 10 (b' + 1)).length :=
    Nat.le_self_pow Nat.length_toDigits_pos.ne' 10
  have hmul : 10 * d ≤ 10 ^ (Nat.toDigits 10 (b' + 1)).length * d := Nat.mul_le_mul_right d hpow
  refine ⟨d, ?_, ?_, by omega⟩
  · -- the second numeral of the first pair does not start with a zero
    by_contra hzero
    have hd0 : d = 0 := by omega
    rw [hd0, Nat.mul_zero, Nat.zero_add] at hvalue
    rw [hvalue] at hrest
    exact hne (by simpa using hrest)
  · rw [← String.toList_inj, String.toList_append, numeral_toList, numeral_toList, hD, ← hDd]
    simp

theorem numeral_append_eq (hd : 0 < d) (h : numeral a' = numeral a ++ toString d) :
    numeral a ++ numeral (10 * d) = numeral a' ++ numeral 0 := by
  have hlast : numeral (10 * d) = toString d ++ numeral 0 := by
    rw [← String.toList_inj, String.toList_append, numeral_toList, numeral_toList,
      ← Nat.toDigits_append_toDigits (by decide) hd (by decide)]
    simp
  rw [hlast, h, String.append_assoc]

theorem le_of_overlap (hd : 0 < d) (h : numeral a' = numeral a ++ toString d) :
    10 * (a + 1) ≤ a' := by
  have hdigits := congrArg (fun s ↦ Nat.ofDigitChars 10 s.toList 0) h
  simp only [String.toList_append, numeral_toList, Nat.ofDigitChars_ten_toDigits,
    Nat.toString_eq_ofList_toDigits, String.toList_ofList, value_append] at hdigits
  have hpow : 10 ≤ 10 ^ (Nat.toDigits 10 d).length := Nat.le_self_pow Nat.length_toDigits_pos.ne' 10
  have hmul : 10 * (a + 1) ≤ 10 ^ (Nat.toDigits 10 d).length * (a + 1) :=
    Nat.mul_le_mul_right (a + 1) hpow
  omega

/-- Two numerals, written one after the other, can be told apart again if the first one or the
second one is at most 10. -/
theorem numeral_append_inj (hsmall : (a < 10 ∧ a' < 10) ∨ (b < 10 ∧ b' < 10))
    (h : numeral a ++ numeral b = numeral a' ++ numeral b') : a = a' ∧ b = b' := by
  have hfront : a = a' := by
    rcases lt_trichotomy a a' with hlt | heq | hlt
    · obtain ⟨d, hd, hover, hle⟩ := numeral_append_overlap h hlt
      have hten := le_of_overlap hd hover
      omega
    · exact heq
    · obtain ⟨d, hd, hover, hle⟩ := numeral_append_overlap h.symm hlt
      have hten := le_of_overlap hd hover
      omega
  subst hfront
  exact ⟨rfl, numeral_inj ((String.append_right_inj _).mp h)⟩

end Numeral

end NshSfc.Library
