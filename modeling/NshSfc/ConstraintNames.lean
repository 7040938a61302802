import NshSfc.Program

namespace NshSfc.ConstraintNames

open Library Allocation Indexing Program

/-- The names of the three families, as `do_lp` gives them in its loops. -/
def names (nodes count : ℕ) (Kr : List ℕ) : List String :=
  let R := requests (Kr.take count)
  ((numerals nodes).map fun n ↦ "(1)" ++ n) ++
    ((numerals nodes).flatMap fun n ↦ R.map fun r ↦ "(2)" ++ n ++ r.1) ++
      R.flatMap fun r ↦ r.2.map fun k ↦ "(3)" ++ r.1 ++ k

/-- The names are distinct, and PuLP accepts every model whose constraints bear them. -/
structure Unique (nodes count : ℕ) (Kr : List ℕ) : Prop where
  nodup : (names nodes count Kr).Nodup
  accepted : ∀ objective (cs : List LpConstraint), cs.map LpConstraint.name = names nodes count Kr →
    ∃ prob, LpProblem.addAll ⟨objective, []⟩ (cs.map .ok) = .ok prob

/-- There are not both 11 nodes and 11 requests, and wherever the number of a request with VNFs is
that of request `i` followed by the digits of `d`, request `i` has at most `10 * d` VNFs. -/
structure Separable (nodes : ℕ) (Kr : List ℕ) : Prop where
  spread : ¬ (11 ≤ nodes ∧ 11 ≤ Kr.length)
  node : ∀ i j d, 0 < d → j < Kr.length → numeral j = numeral i ++ toString d → 0 < size Kr j →
    size Kr i ≤ 10 * d

section Names

variable {nodes : ℕ} {Kr : List ℕ}

theorem names_eq (nodes count : ℕ) (Kr : List ℕ) :
    names nodes count Kr = (program nodes (Kr.take count)).names := by
  simp only [names, requests_eq, LpProblem.names, program, loadRows, spreadRows, nodeRows, numerals,
    List.map_append, List.map_map, List.map_flatMap, List.flatMap_map]
  rfl

theorem nodup_spreadRows_iff : ((spreadRows nodes Kr).map LpConstraint.name).Nodup ↔
    ¬ (11 ≤ nodes ∧ 11 ≤ Kr.length) := by
  constructor
  · intro h hlarge
    exact spread_overlap hlarge.1 hlarge.2 h
  · intro h
    exact nodup_spreadRows (by omega)

theorem nodup_nodeRows_iff : ((nodeRows nodes Kr).map LpConstraint.name).Nodup ↔
    ∀ i j d, 0 < d → j < Kr.length → numeral j = numeral i ++ toString d → 0 < size Kr j →
      size Kr i ≤ 10 * d := by
  rw [nodeRows, List.map_flatMap]
  simp only [List.map_map]
  constructor
  · intro h i j d hd hj hover hpos
    by_contra hlarge
    have hle := le_of_overlap hd hover
    have hne := ne_of_nodup_pairs h (by omega : i < j) hj (by omega : 10 * d < size Kr i) hpos
    have happend := congrArg ("(3)" ++ ·) (numeral_append_eq hd hover)
    simp only [← String.append_assoc] at happend
    exact hne happend
  · intro h
    have hless : ∀ {i k j l : ℕ}, j < Kr.length → k < size Kr i → l < size Kr j →
        numeral i ++ numeral k = numeral j ++ numeral l → ¬ i < j := by
      intro i k j l hj hk hl happend hlt
      obtain ⟨d, hd, hover, hle⟩ := numeral_append_overlap happend hlt
      have hsize := h i j d hd hj hover (Nat.zero_lt_of_lt hl)
      omega
    refine nodup_pairs fun i hi k hk i' hi' k' hk' hname ↦ ?_
    have happend : "(3)" ++ numeral i ++ numeral k = "(3)" ++ numeral i' ++ numeral k' := hname
    rw [String.append_assoc, String.append_assoc, String.append_right_inj] at happend
    obtain rfl : i = i' := by
      have hlt := hless hi' hk hk' happend
      have hgt := hless hi hk' hk happend.symm
      omega
    exact ⟨rfl, numeral_inj ((String.append_right_inj _).mp happend)⟩

end Names

/-- The names are unique exactly if the numerals in them can be told apart. -/
theorem unique_iff (nodes count : ℕ) (Kr : List ℕ) :
    Unique nodes count Kr ↔ Separable nodes (Kr.take count) := by
  have hnodup : (names nodes count Kr).Nodup ↔ Separable nodes (Kr.take count) := by
    rw [names_eq, nodup_names_iff, nodup_spreadRows_iff, nodup_nodeRows_iff]
    exact ⟨fun h ↦ ⟨h.1, h.2⟩, fun h ↦ ⟨h.spread, h.node⟩⟩
  constructor
  · intro h
    exact hnodup.mp h.nodup
  · intro h
    refine ⟨hnodup.mpr h, fun objective cs hcs ↦ ⟨_, addAll_eq_ok ?_⟩⟩
    rw [hcs]
    exact hnodup.mpr h

/-- With 11 nodes and 11 requests, of which those without VNFs leave the variables of the others
alone, PuLP refuses the name of request 1 on node 11. -/
theorem name_taken : ¬ Unique 11 11 [0, 1, 1, 1, 1, 1, 1, 1, 1, 0, 0] ∧
    doLp 11 [0, 1, 1, 1, 1, 1, 1, 1, 1, 0, 0] = .error (.pulpError "(2)111") := by
  constructor
  · intro h
    have hnodup := nodup_names_iff.mp (names_eq 11 11 _ ▸ h.nodup)
    exact nodup_spreadRows_iff.mp hnodup.1 ⟨le_rfl, le_rfl⟩
  · exact doLp_taken ⟨by decide, by decide⟩ le_rfl le_rfl

end NshSfc.ConstraintNames
