import Mathlib.Algebra.BigOperators.Group.Finset.Piecewise
import Mathlib.Algebra.BigOperators.Ring.Finset
import Mathlib.Data.Int.CardIntervalMod
import Mathlib.Data.Nat.Count
import Mathlib.Data.Rat.Floor
import Mathlib.Algebra.Order.BigOperators.Group.Finset
import Mathlib.Order.Lattice.Nat

namespace NshSfc.Library

open Finset

/-- The items of the groups `0` to `m - 1` are put into `N` bins, those of one group into different
bins. Group `i` has `size i` items. -/
structure Placement (N m : ℕ) (size : ℕ → ℕ) where
  bin : ℕ → ℕ → ℕ
  bin_lt : ∀ i < m, ∀ k < size i, bin i k < N
  bin_inj : ∀ i < m, ∀ k < size i, ∀ l < size i, bin i k = bin i l → k = l

namespace Placement

variable {N m : ℕ} {size : ℕ → ℕ}

def share (P : Placement N m size) (i n : ℕ) : ℕ := Nat.count (fun k ↦ P.bin i k = n) (size i)

def load (P : Placement N m size) (n : ℕ) : ℕ := ∑ i ∈ range m, P.share i n

def maxLoad (P : Placement N m size) : ℕ := (range N).sup P.load

theorem share_eq_card (P : Placement N m size) (i n : ℕ) :
    P.share i n = #{k ∈ range (size i) | P.bin i k = n} := Nat.count_eq_card_filter_range _ _

theorem sum_indicator (P : Placement N m size) (i n : ℕ) :
    ∑ k ∈ range (size i), (if P.bin i k = n then (1 : Int) else 0) = P.share i n := by
  rw [sum_boole, share_eq_card]

theorem share_le_one (P : Placement N m size) {i : ℕ} (hi : i < m) (n : ℕ) : P.share i n ≤ 1 := by
  rw [share_eq_card, card_le_one]
  intro k hk l hl
  obtain ⟨hk, hkn⟩ := mem_filter.mp hk
  obtain ⟨hl, hln⟩ := mem_filter.mp hl
  exact P.bin_inj i hi k (mem_range.mp hk) l (mem_range.mp hl) (hkn.trans hln.symm)

theorem sum_share (P : Placement N m size) {i : ℕ} (hi : i < m) :
    ∑ n ∈ range N, P.share i n = size i := by
  simp only [share_eq_card]
  rw [← card_eq_sum_card_fiberwise, card_range]
  intro k hk
  exact mem_range.mpr (P.bin_lt i hi k (mem_range.mp hk))

theorem sum_load (P : Placement N m size) :
    ∑ n ∈ range N, P.load n = ∑ i ∈ range m, size i := by
  simp only [load]
  rw [sum_comm]
  exact sum_congr rfl fun i hi ↦ P.sum_share (mem_range.mp hi)

def occupied (m : ℕ) (size : ℕ → ℕ) : ℕ := #{i ∈ range m | 0 < size i}

theorem load_le_occupied (P : Placement N m size) (n : ℕ) : P.load n ≤ occupied m size := by
  rw [load, occupied, card_filter]
  refine sum_le_sum fun i hi ↦ ?_
  split_ifs with h
  · exact P.share_le_one (mem_range.mp hi) n
  · obtain h0 : size i = 0 := by omega
    simp [share, h0]

theorem load_le_maxLoad (P : Placement N m size) {n : ℕ} (hn : n < N) : P.load n ≤ P.maxLoad :=
  le_sup (f := P.load) (mem_range.mpr hn)

theorem maxLoad_le_occupied (P : Placement N m size) : P.maxLoad ≤ occupied m size :=
  Finset.sup_le fun n _ ↦ P.load_le_occupied n

section Indicator

theorem exists_bin {f : ℕ → Int} (hbinary : ∀ n < N, f n = 0 ∨ f n = 1)
    (hsum : ∑ n ∈ range N, f n = 1) : ∃ b < N, ∀ n < N, f n = if b = n then 1 else 0 := by
  have hnonneg : ∀ n ∈ range N, 0 ≤ f n := fun n hn ↦ by
    have := hbinary n (mem_range.mp hn)
    omega
  obtain ⟨b, hb, hone⟩ : ∃ b ∈ range N, f b = 1 := by
    by_contra hnone
    push Not at hnone
    have hzero : ∑ n ∈ range N, f n = 0 := sum_eq_zero fun n hn ↦
      (hbinary n (mem_range.mp hn)).resolve_right (hnone n hn)
    omega
  refine ⟨b, mem_range.mp hb, fun n hn ↦ ?_⟩
  split_ifs with heq
  · rw [← heq, hone]
  · have hle := add_le_sum hnonneg hb (mem_range.mpr hn) heq
    have := hbinary n hn
    omega

theorem exists_of_indicator {x : ℕ → ℕ → ℕ → Int}
    (hbinary : ∀ i < m, ∀ k < size i, ∀ n < N, x i k n = 0 ∨ x i k n = 1)
    (hitem : ∀ i < m, ∀ k < size i, ∑ n ∈ range N, x i k n = 1)
    (hgroup : ∀ i < m, ∀ n < N, ∑ k ∈ range (size i), x i k n ≤ 1) :
    ∃ P : Placement N m size,
      ∀ i < m, ∀ k < size i, ∀ n < N, x i k n = if P.bin i k = n then 1 else 0 := by
  have hbin : ∀ i k, ∃ b, i < m → k < size i →
      b < N ∧ ∀ n < N, x i k n = if b = n then 1 else 0 := by
    intro i k
    by_cases h : i < m ∧ k < size i
    · obtain ⟨b, hb, hx⟩ := exists_bin (hbinary i h.1 k h.2) (hitem i h.1 k h.2)
      exact ⟨b, fun _ _ ↦ ⟨hb, hx⟩⟩
    · exact ⟨0, fun hi hk ↦ absurd ⟨hi, hk⟩ h⟩
  choose bin hbin using hbin
  refine ⟨⟨bin, fun i hi k hk ↦ (hbin i k hi hk).1, fun i hi k hk l hl heq ↦ ?_⟩,
    fun i hi k hk ↦ (hbin i k hi hk).2⟩
  by_contra hne
  obtain ⟨hlt, hk1⟩ := hbin i k hi hk
  have hl1 := (hbin i l hi hl).2
  have hnonneg : ∀ j ∈ range (size i), 0 ≤ x i j (bin i k) := fun j hj ↦ by
    have := hbinary i hi j (mem_range.mp hj) _ hlt
    omega
  have hle := add_le_sum hnonneg (mem_range.mpr hk) (mem_range.mpr hl) hne
  rw [hk1 _ hlt, hl1 _ hlt, if_pos rfl, if_pos heq.symm] at hle
  have := hgroup i hi _ hlt
  omega

end Indicator

section Crowded

variable (hsize : ∀ i < m, size i ≤ N)

def crowded (hsize : ∀ i < m, size i ≤ N) : Placement N m size where
  bin _ k := k
  bin_lt i hi _ hk := hk.trans_le (hsize i hi)
  bin_inj _ _ _ _ _ _ h := h

theorem crowded_load : (crowded hsize).load 0 = occupied m size := by
  rw [load, occupied, card_filter]
  refine sum_congr rfl fun i _ ↦ ?_
  rw [share, crowded]
  cases size i with
  | zero => rfl
  | succ k => simp [Nat.count_succ']

theorem crowded_maxLoad (hN : 0 < N) : (crowded hsize).maxLoad = occupied m size :=
  le_antisymm (maxLoad_le_occupied _) (crowded_load hsize ▸ load_le_maxLoad _ hN)

end Crowded

section Cyclic

def offset (size : ℕ → ℕ) (i : ℕ) : ℕ := ∑ j ∈ range i, size j

theorem offset_succ (size : ℕ → ℕ) (i : ℕ) : offset size (i + 1) = offset size i + size i :=
  sum_range_succ size i

theorem sum_count_offset (p : ℕ → Prop) [DecidablePred p] (size : ℕ → ℕ) (m : ℕ) :
    ∑ i ∈ range m, Nat.count (fun k ↦ p (offset size i + k)) (size i) =
      Nat.count p (offset size m) := by
  induction m with
  | zero => simp [offset]
  | succ m ih => rw [sum_range_succ, ih, offset_succ, Nat.count_add]

variable (hN : 0 < N) (hsize : ∀ i < m, size i ≤ N)

def cyclic (hN : 0 < N) (hsize : ∀ i < m, size i ≤ N) : Placement N m size where
  bin i k := (offset size i + k) % N
  bin_lt _ _ _ _ := Nat.mod_lt _ hN
  bin_inj i hi k hk l hl h := by
    have hmod : k ≡ l [MOD N] := Nat.ModEq.add_left_cancel' _ h
    exact hmod.eq_of_lt_of_lt (hk.trans_le (hsize i hi)) (hl.trans_le (hsize i hi))

theorem cyclic_load (n : ℕ) :
    (cyclic hN hsize).load n = Nat.count (fun t ↦ t % N = n) (offset size m) :=
  sum_count_offset (fun t ↦ t % N = n) size m

theorem cyclic_load_le {n b : ℕ} (hn : n < N) (hb : ∑ i ∈ range m, size i ≤ N * b) :
    (cyclic hN hsize).load n ≤ b := by
  have hcount := Nat.count_modEq_card (offset size m) hN n
  simp only [Nat.ModEq, Nat.mod_eq_of_lt hn] at hcount
  rw [cyclic_load, hcount]
  have hdiv := Nat.div_add_mod (offset size m) N
  by_contra hlt
  have hlt : b < offset size m / N + if n < offset size m % N then 1 else 0 := by omega
  split_ifs at hlt with hmod
  · have hmul := Nat.mul_le_mul_left N (by omega : b ≤ offset size m / N)
    simp only [offset] at hdiv hmod hmul
    omega
  · have hmul := Nat.mul_le_mul_left N (by omega : b + 1 ≤ offset size m / N)
    rw [Nat.mul_succ] at hmul
    simp only [offset] at hdiv hmul
    omega

end Cyclic

theorem sum_le_mul_maxLoad (P : Placement N m size) :
    ∑ i ∈ range m, size i ≤ N * P.maxLoad := by
  rw [← P.sum_load]
  have hsum := sum_le_card_nsmul (range N) P.load P.maxLoad fun n hn ↦
    P.load_le_maxLoad (mem_range.mp hn)
  simpa using hsum

/-- No placement spreads the items better than the cyclic one. -/
theorem cyclic_maxLoad (hN : 0 < N) (hsize : ∀ i < m, size i ≤ N) :
    (cyclic hN hsize).maxLoad = ⌈((∑ i ∈ range m, size i : ℕ) : ℚ) / N⌉₊ := by
  have hpos : (0 : ℚ) < N := Nat.cast_pos.mpr hN
  apply le_antisymm
  · refine Finset.sup_le fun n hn ↦ cyclic_load_le hN hsize (mem_range.mp hn) ?_
    have hle := Nat.le_ceil (((∑ i ∈ range m, size i : ℕ) : ℚ) / N)
    rw [div_le_iff₀' hpos] at hle
    exact_mod_cast hle
  · rw [Nat.ceil_le, div_le_iff₀' hpos]
    exact_mod_cast sum_le_mul_maxLoad _

end Placement

end NshSfc.Library
