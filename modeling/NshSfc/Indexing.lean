import NshSfc.Allocation
import NshSfc.Library.Sequencing

namespace NshSfc.Indexing

open Library Allocation

variable {nodes : ℕ} {Kr : List ℕ}

def size (Kr : List ℕ) (i : ℕ) : ℕ := Kr.getD i 0

theorem requests_eq (Kr : List ℕ) :
    requests Kr = (List.range Kr.length).map fun i ↦ (numeral i, numerals (size Kr i)) := by
  refine List.ext_getElem (by simp [requests, numerals]) fun i hi hi' ↦ ?_
  have hlen : i < Kr.length := by simpa using hi'
  simp [requests, numerals, size, List.getD, hlen]

theorem get_eq_ok {α : Type} {d : Dict α} {key : String} {a : α} :
    d.get key = .ok a ↔ d.lookup key = some a := by
  unfold Dict.get
  cases d.lookup key <;> simp

def variablesOf (nodes : ℕ) (r : String) (ks : List String) : Dict (Dict LpVariable) :=
  ks.map fun k ↦ (k, (numerals nodes).map fun n ↦ (n, ⟨["x", r, k, n], 0, 1⟩))

theorem lookup_character (rs : List (String × List String)) (c : Char) :
    (rs.foldl (fun x r ↦ Dict.update x
      (LpVariable.dicts "x" (characters r.1) r.2 (numerals nodes) 0 1)) []).lookup
        (String.singleton c) =
      (rs.reverse.find? fun r ↦ c ∈ r.1.toList).map fun r ↦
        variablesOf nodes (String.singleton c) r.2 := by
  induction rs using List.reverseRecOn with
  | nil => rfl
  | append_singleton rs r ih =>
    have hmem : String.singleton c ∈ characters r.1 ↔ c ∈ r.1.toList := by
      simp [characters, ← String.toList_inj]
    have hdicts : (LpVariable.dicts "x" (characters r.1) r.2 (numerals nodes) 0 1).lookup
        (String.singleton c) =
          if c ∈ r.1.toList then some (variablesOf nodes (String.singleton c) r.2) else none := by
      rw [LpVariable.dicts, lookup_map_self]
      simp only [hmem]
      rfl
    rw [List.foldl_append, List.foldl_cons, List.foldl_nil, Dict.update, List.lookup_append, hdicts,
      List.reverse_append, List.reverse_singleton, List.singleton_append, List.find?_cons, ih]
    by_cases hc : c ∈ r.1.toList <;> simp [hc]

theorem lookup_longer (rs : List (String × List String)) {key : String}
    (hkey : ∀ c, key ≠ String.singleton c) :
    (rs.foldl (fun x r ↦ Dict.update x
      (LpVariable.dicts "x" (characters r.1) r.2 (numerals nodes) 0 1)) []).lookup key = none := by
  induction rs using List.reverseRecOn with
  | nil => rfl
  | append_singleton rs r ih =>
    have hmem : key ∉ characters r.1 := by
      intro hmem
      obtain ⟨c, -, hc⟩ := List.mem_map.mp hmem
      exact hkey c hc.symm
    rw [List.foldl_append, List.foldl_cons, List.foldl_nil, Dict.update, List.lookup_append, ih,
      LpVariable.dicts, lookup_map_self, if_neg hmem]
    rfl

def Mentions (j i : ℕ) : Prop := Nat.digitChar (i + 1) ∈ Nat.toDigits 10 (j + 1)

instance (j i : ℕ) : Decidable (Mentions j i) :=
  inferInstanceAs (Decidable (Nat.digitChar (i + 1) ∈ Nat.toDigits 10 (j + 1)))

theorem mem_requests {r : String × List String} :
    r ∈ requests Kr ↔ ∃ i < Kr.length, r = (numeral i, numerals (size Kr i)) := by
  simp [requests_eq, eq_comm]

/-- The first nine requests keep their variables if no later request mentions them. -/
theorem lookup_early {i : ℕ} (hi : i < Kr.length) (hlt : i < 9)
    (hlate : ∀ j < Kr.length, 9 ≤ j → ¬ Mentions j i) :
    (xRkn nodes Kr).lookup (numeral i) =
      some (variablesOf nodes (numeral i) (numerals (size Kr i))) := by
  have hfind : ((requests Kr).reverse.find? fun r ↦ Nat.digitChar (i + 1) ∈ r.1.toList) =
      some (numeral i, numerals (size Kr i)) := by
    refine find?_unique (List.mem_reverse.mpr (mem_requests.mpr ⟨i, hi, rfl⟩)) ?_ fun r hr hc ↦ ?_
    · simp [numeral_of_lt hlt]
    · obtain ⟨j, hj, rfl⟩ := mem_requests.mp (List.mem_reverse.mp hr)
      have hc : Mentions j i := by simpa [Mentions, numeral_toList] using hc
      have hj9 : j < 9 := by
        by_contra h9
        exact hlate j hj (not_lt.mp h9) hc
      rw [Mentions, Nat.toDigits_of_lt_base (by omega), List.mem_singleton] at hc
      obtain rfl : i = j := Nat.succ_injective (digitChar_inj (by omega) (by omega) hc)
      rfl
  rw [xRkn, numeral_of_lt hlt, lookup_character, hfind]
  rfl

/-- A later request without VNFs that mentions request `i` takes the variables of `i` away. -/
theorem lookup_mentioned {i j : ℕ} (hlt : i < 9) (hj : j < Kr.length) (hj9 : 9 ≤ j)
    (hc : Mentions j i) (hempty : ∀ j < Kr.length, 9 ≤ j → size Kr j = 0) :
    (xRkn nodes Kr).lookup (numeral i) = some [] := by
  have hmem : (numeral j, numerals (size Kr j)) ∈ (requests Kr).drop 9 := by
    refine List.mem_iff_getElem.mpr ⟨j - 9, by simp [requests_eq]; omega, ?_⟩
    have hadd : 9 + (j - 9) = j := by omega
    simp [requests_eq, hadd]
  have hp : ∀ r : String × List String, r = (numeral j, numerals (size Kr j)) →
      Nat.digitChar (i + 1) ∈ r.1.toList := by
    rintro r rfl
    rw [numeral_toList]
    exact hc
  -- the last request that mentions `i` is a late one
  obtain ⟨r, hr⟩ : ∃ r, ((requests Kr).drop 9).reverse.find?
      (fun r ↦ Nat.digitChar (i + 1) ∈ r.1.toList) = some r := by
    refine Option.isSome_iff_exists.mp (List.find?_isSome.mpr ?_)
    exact ⟨_, List.mem_reverse.mpr hmem, by simpa using hp _ rfl⟩
  have hfind : (requests Kr).reverse.find? (fun r ↦ Nat.digitChar (i + 1) ∈ r.1.toList) =
      some r := by
    rw [← List.take_append_drop 9 (requests Kr), List.reverse_append, List.find?_append, hr]
    rfl
  obtain ⟨k, hk, hget⟩ := List.mem_iff_getElem.mp
    (List.mem_reverse.mp (List.mem_of_find?_eq_some hr))
  have hnone : r.2 = [] := by
    have hk' : 9 + k < Kr.length := by
      simp [requests_eq] at hk
      omega
    rw [← hget]
    simp [requests_eq, hempty _ hk' (by omega), numerals]
  rw [xRkn, numeral_of_lt hlt, lookup_character, hfind]
  simp [hnone, variablesOf]

end NshSfc.Indexing
