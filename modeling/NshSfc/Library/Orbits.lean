import Mathlib.Data.Finset.Card
import Mathlib.Order.Lattice.Nat

namespace NshSfc.Library

variable {α : Type} {next : α → Option α} {a x : α}

/-- Where `n` steps of a partial function lead. -/
def orbit (next : α → Option α) (a : α) : ℕ → Option α
  | 0 => some a
  | n + 1 => (next a).bind fun b ↦ orbit next b n

@[simp] theorem orbit_zero : orbit next a 0 = some a := rfl

theorem orbit_succ_of_some {b : α} (h : next a = some b) (n : ℕ) :
    orbit next a (n + 1) = orbit next b n := by
  rw [orbit, h]
  rfl

theorem orbit_succ_of_none (h : next a = none) (n : ℕ) : orbit next a (n + 1) = none := by
  rw [orbit, h]
  rfl

theorem orbit_add (m n : ℕ) :
    orbit next a (m + n) = (orbit next a m).bind fun b ↦ orbit next b n := by
  induction m generalizing a with
  | zero => simp
  | succ m ih =>
    rw [Nat.add_right_comm]
    cases h : next a with
    | none => rw [orbit_succ_of_none h, orbit_succ_of_none h, Option.bind_none]
    | some b => rw [orbit_succ_of_some h, orbit_succ_of_some h, ih]

theorem orbit_of_le {m n : ℕ} (hmn : m ≤ n) (h : orbit next a n = some x) :
    ∃ y, orbit next a m = some y := by
  obtain ⟨k, rfl⟩ := Nat.exists_eq_add_of_le hmn
  rw [orbit_add] at h
  obtain ⟨y, hy, -⟩ := Option.bind_eq_some_iff.mp h
  exact ⟨y, hy⟩

def NoReturn (next : α → Option α) (a : α) : Prop :=
  ∀ i j x, orbit next a i = some x → orbit next a j = some x → i = j

theorem orbit_of_returns {i j : ℕ} (hij : i < j) (hi : orbit next a i = some x)
    (hj : orbit next a j = some x) (n : ℕ) : ∃ y, orbit next a n = some y := by
  induction n using Nat.strong_induction_on with
  | _ n ih =>
    by_cases hn : n ≤ j
    · exact orbit_of_le hn hj
    · obtain ⟨k, rfl⟩ := Nat.exists_eq_add_of_le (Nat.le_of_not_le hn)
      have hback : orbit next a (j + k) = orbit next a (i + k) := by
        rw [orbit_add, orbit_add, hi, hj]
      rw [hback]
      exact ih (i + k) (by omega)

theorem noReturn_of_ends {n : ℕ} (h : orbit next a n = none) : NoReturn next a := by
  intro i j x hi hj
  rcases Nat.lt_trichotomy i j with hij | hij | hij
  · obtain ⟨y, hy⟩ := orbit_of_returns hij hi hj n
    rw [h] at hy
    cases hy
  · exact hij
  · obtain ⟨y, hy⟩ := orbit_of_returns hij hj hi n
    rw [h] at hy
    cases hy

theorem returns_of_subset {as : List α} (h : ∀ k ≤ as.length, ∃ x ∈ as, orbit next a k = some x) :
    ¬ NoReturn next a := by
  classical
  intro hno
  have hcard : as.toFinset.card < (Finset.range (as.length + 1)).card := by
    rw [Finset.card_range]
    exact Nat.lt_succ_of_le as.toFinset_card_le
  obtain ⟨i, hi, j, hj, hne, hij⟩ := Finset.exists_ne_map_eq_of_card_lt_of_maps_to hcard
    (f := fun k ↦ (orbit next a k).getD a) <| by
      intro k hk
      obtain ⟨x, hx, hk⟩ := h k (by simpa [Nat.lt_succ_iff] using hk)
      simpa [hk] using hx
  obtain ⟨x, -, hx⟩ := h i (by simpa [Nat.lt_succ_iff] using hi)
  obtain ⟨y, -, hy⟩ := h j (by simpa [Nat.lt_succ_iff] using hj)
  obtain rfl : x = y := by simpa [hx, hy] using hij
  exact hne (hno i j x hx hy)

/-- If only the values in a list have successors, an orbit ends within as many steps as the list
is long, unless it returns, or leaves the list after all these steps. -/
theorem orbit_ends_iff {as : List α} (hnext : ∀ x y, next x = some y → x ∈ as) :
    orbit next a as.length = none ↔
      NoReturn next a ∧ ∀ x, orbit next a as.length = some x → x ∈ as := by
  constructor
  · intro h
    refine ⟨noReturn_of_ends h, fun x hx ↦ ?_⟩
    rw [h] at hx
    cases hx
  · intro ⟨hno, hlast⟩
    cases hend : orbit next a as.length with
    | none => rfl
    | some z =>
      have hall : ∀ k ≤ as.length, ∃ x ∈ as, orbit next a k = some x := by
        intro k hk
        obtain ⟨x, hx⟩ := orbit_of_le hk hend
        refine ⟨x, ?_, hx⟩
        rcases Nat.lt_or_eq_of_le hk with hlt | rfl
        · obtain ⟨y, hy⟩ := orbit_of_le (m := k + 1) hlt hend
          rw [orbit_add, hx] at hy
          cases hs : next x with
          | none => simp [orbit, hs] at hy
          | some b => exact hnext x b hs
        · exact hlast x hx
      exact absurd hno (returns_of_subset hall)

end NshSfc.Library
