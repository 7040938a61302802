import NshSfc.Library.Placement
import NshSfc.Program
import Mathlib.Order.Bounds.Basic

namespace NshSfc.Optimum

open Library Allocation Indexing Program Finset

section Rows

variable {nodes : ℕ} {Kr : List ℕ} {v : LpVariable → Int}

theorem sum_map_range (f : ℕ → Int) (n : ℕ) : ((List.range n).map f).sum = ∑ i ∈ range n, f i :=
  rfl

theorem value_spreadRow (n i : ℕ) :
    (spreadRow Kr n i).value v = ∑ k ∈ range (size Kr i), v (xVar i k n) := by
  rw [← sum_map_range, LpConstraint.value, spreadRow, List.map_map]
  simp [Function.comp_def]

theorem value_nodeRow (i k : ℕ) :
    (nodeRow nodes i k).value v = ∑ n ∈ range nodes, v (xVar i k n) := by
  rw [← sum_map_range, LpConstraint.value, nodeRow, List.map_map]
  simp [Function.comp_def]

theorem value_loadRow (n : ℕ) : (loadRow Kr n).value v =
    (∑ i ∈ range Kr.length, ∑ k ∈ range (size Kr i), v (xVar i k n)) - v (alphaVar Kr) := by
  have hrows : (loadRow Kr n).terms =
      ((List.range Kr.length).map fun i ↦ (spreadRow Kr n i).terms).flatten ++
        [(-1, alphaVar Kr)] := rfl
  have hsum : (∑ i ∈ range Kr.length, ∑ k ∈ range (size Kr i), v (xVar i k n)) =
      ∑ i ∈ range Kr.length, (spreadRow Kr n i).value v :=
    sum_congr rfl fun i _ ↦ (value_spreadRow n i).symm
  rw [hsum, ← sum_map_range, LpConstraint.value, hrows, List.map_append, List.sum_append,
    List.map_flatten, List.sum_flatten, List.map_map, List.map_map]
  simp [Function.comp_def, LpConstraint.value, sub_eq_add_neg]

structure Solves (nodes : ℕ) (Kr : List ℕ) (v : LpVariable → Int) : Prop where
  alpha : 0 ≤ v (alphaVar Kr) ∧ v (alphaVar Kr) ≤ longest Kr
  bounds : ∀ i < Kr.length, ∀ k < size Kr i, ∀ n < nodes, 0 ≤ v (xVar i k n) ∧ v (xVar i k n) ≤ 1
  load : ∀ n < nodes,
    ∑ i ∈ range Kr.length, ∑ k ∈ range (size Kr i), v (xVar i k n) ≤ v (alphaVar Kr)
  spread : ∀ n < nodes, ∀ i < Kr.length, ∑ k ∈ range (size Kr i), v (xVar i k n) ≤ 1
  node : ∀ i < Kr.length, ∀ k < size Kr i, ∑ n ∈ range nodes, v (xVar i k n) = 1

theorem mem_constraints {c : LpConstraint} : c ∈ (program nodes Kr).constraints ↔
    (∃ n < nodes, loadRow Kr n = c) ∨ (∃ n < nodes, ∃ i < Kr.length, spreadRow Kr n i = c) ∨
      ∃ i < Kr.length, ∃ k < size Kr i, nodeRow nodes i k = c := by
  simp [program, loadRows, spreadRows, nodeRows]

theorem mem_variables {x : LpVariable} (hx : x ∈ (program nodes Kr).variables) :
    x = alphaVar Kr ∨ ∃ i < Kr.length, ∃ k < size Kr i, ∃ n < nodes, x = xVar i k n := by
  rcases List.mem_cons.mp hx with hx | hx
  · exact .inl hx
  · obtain ⟨c, hc, hx⟩ := List.mem_flatMap.mp hx
    obtain ⟨t, ht, rfl⟩ := List.mem_map.mp hx
    rcases mem_constraints.mp hc with ⟨n, hn, rfl⟩ | ⟨n, hn, i, hi, rfl⟩ | ⟨i, hi, k, hk, rfl⟩
    · rcases List.mem_append.mp ht with ht | ht
      · obtain ⟨i, hi, ht⟩ := List.mem_flatMap.mp ht
        obtain ⟨k, hk, rfl⟩ := List.mem_map.mp ht
        exact .inr ⟨i, List.mem_range.mp hi, k, List.mem_range.mp hk, n, hn, rfl⟩
      · rw [List.mem_singleton.mp ht]
        exact .inl rfl
    · obtain ⟨k, hk, rfl⟩ := List.mem_map.mp ht
      exact .inr ⟨i, hi, k, List.mem_range.mp hk, n, hn, rfl⟩
    · obtain ⟨n, hn, rfl⟩ := List.mem_map.mp ht
      exact .inr ⟨i, hi, k, hk, n, List.mem_range.mp hn, rfl⟩

theorem xVar_mem_variables {i k n : ℕ} (hi : i < Kr.length) (hk : k < size Kr i) (hn : n < nodes) :
    xVar i k n ∈ (program nodes Kr).variables := by
  have hrow : spreadRow Kr n i ∈ (program nodes Kr).constraints :=
    mem_constraints.mpr (.inr (.inl ⟨n, hn, i, hi, rfl⟩))
  refine List.mem_cons_of_mem _ (List.mem_flatMap.mpr ⟨_, hrow, ?_⟩)
  exact List.mem_map.mpr ⟨_, List.mem_map.mpr ⟨k, List.mem_range.mpr hk, rfl⟩, rfl⟩

theorem constraints_iff : (∀ c ∈ (program nodes Kr).constraints, c.Holds v) ↔
    (∀ n < nodes,
      ∑ i ∈ range Kr.length, ∑ k ∈ range (size Kr i), v (xVar i k n) ≤ v (alphaVar Kr)) ∧
    (∀ n < nodes, ∀ i < Kr.length, ∑ k ∈ range (size Kr i), v (xVar i k n) ≤ 1) ∧
    ∀ i < Kr.length, ∀ k < size Kr i, ∑ n ∈ range nodes, v (xVar i k n) = 1 := by
  constructor
  · intro h
    refine ⟨fun n hn ↦ ?_, fun n hn i hi ↦ ?_, fun i hi k hk ↦ ?_⟩
    · have hrow := h _ (mem_constraints.mpr (.inl ⟨n, hn, rfl⟩))
      have hvalue : (loadRow Kr n).value v ≤ 0 := hrow
      rw [value_loadRow] at hvalue
      exact Int.le_of_sub_nonpos hvalue
    · have hrow := h _ (mem_constraints.mpr (.inr (.inl ⟨n, hn, i, hi, rfl⟩)))
      exact (value_spreadRow n i).symm.trans_le hrow
    · have hrow := h _ (mem_constraints.mpr (.inr (.inr ⟨i, hi, k, hk, rfl⟩)))
      exact (value_nodeRow i k).symm.trans hrow
  · intro h c hc
    obtain ⟨hload, hspread, hnode⟩ := h
    rcases mem_constraints.mp hc with ⟨n, hn, rfl⟩ | ⟨n, hn, i, hi, rfl⟩ | ⟨i, hi, k, hk, rfl⟩
    · change (loadRow Kr n).value v ≤ 0
      rw [value_loadRow]
      exact Int.sub_nonpos_of_le (hload n hn)
    · exact (value_spreadRow n i).trans_le (hspread n hn i hi)
    · exact (value_nodeRow i k).trans (hnode i hi k hk)

theorem feasible_iff : (program nodes Kr).Feasible v ↔ Solves nodes Kr v := by
  constructor
  · intro h
    obtain ⟨hload, hspread, hnode⟩ := constraints_iff.mp h.constraints
    exact ⟨h.bounds _ List.mem_cons_self,
      fun i hi k hk n hn ↦ h.bounds _ (xVar_mem_variables hi hk hn), hload, hspread, hnode⟩
  · intro h
    refine ⟨fun x hx ↦ ?_, constraints_iff.mpr ⟨h.load, h.spread, h.node⟩⟩
    rcases mem_variables hx with rfl | ⟨i, hi, k, hk, n, hn, rfl⟩
    · exact h.alpha
    · exact h.bounds i hi k hk n hn

end Rows

section Counting

variable {nodes : ℕ} {Kr : List ℕ} {v : LpVariable → Int}

theorem map_size (Kr : List ℕ) : (List.range Kr.length).map (size Kr) = Kr :=
  List.ext_getElem (by simp) fun i _ hi ↦ by simp [size, List.getD, hi]

theorem size_mem {i : ℕ} (hi : i < Kr.length) : size Kr i ∈ Kr := by
  have hmem : size Kr i ∈ (List.range Kr.length).map (size Kr) :=
    List.mem_map_of_mem (List.mem_range.mpr hi)
  rwa [map_size] at hmem

theorem sum_size (Kr : List ℕ) : ∑ i ∈ range Kr.length, size Kr i = Kr.sum := by
  calc
    ∑ i ∈ range Kr.length, size Kr i = ((List.range Kr.length).map (size Kr)).sum := rfl
    _ = Kr.sum := by rw [map_size]

theorem occupied_eq (Kr : List ℕ) :
    Placement.occupied Kr.length (size Kr) = Kr.countP (0 < ·) := by
  calc
    Placement.occupied Kr.length (size Kr) =
        ((List.range Kr.length).filter fun i ↦ 0 < size Kr i).length := rfl
    _ = ((List.range Kr.length).map (size Kr)).countP (0 < ·) := by
      rw [List.countP_map, List.countP_eq_length_filter]
      rfl
    _ = Kr.countP (0 < ·) := by rw [map_size]

theorem size_le (h : Solves nodes Kr v) {i : ℕ} (hi : i < Kr.length) : size Kr i ≤ nodes := by
  have hcount : (size Kr i : Int) ≤ nodes := by
    calc
      (size Kr i : Int) = ∑ k ∈ range (size Kr i), ∑ n ∈ range nodes, v (xVar i k n) := by
        rw [sum_congr rfl fun k hk ↦ h.node i hi k (mem_range.mp hk)]
        simp
      _ = ∑ n ∈ range nodes, ∑ k ∈ range (size Kr i), v (xVar i k n) := sum_comm
      _ ≤ ∑ n ∈ range nodes, 1 := sum_le_sum fun n hn ↦ h.spread n (mem_range.mp hn) i hi
      _ = nodes := by simp
  exact_mod_cast hcount

theorem sum_le (h : Solves nodes Kr v) : (Kr.sum : Int) ≤ nodes * v (alphaVar Kr) := by
  calc
    (Kr.sum : Int) = ∑ i ∈ range Kr.length, (size Kr i : Int) := by
      rw [← sum_size, Nat.cast_sum]
    _ = ∑ i ∈ range Kr.length, ∑ k ∈ range (size Kr i), ∑ n ∈ range nodes, v (xVar i k n) := by
      refine sum_congr rfl fun i hi ↦ ?_
      rw [sum_congr rfl fun k hk ↦ h.node i (mem_range.mp hi) k (mem_range.mp hk)]
      simp
    _ = ∑ n ∈ range nodes, ∑ i ∈ range Kr.length, ∑ k ∈ range (size Kr i), v (xVar i k n) := by
      rw [sum_comm]
      exact sum_congr rfl fun i _ ↦ sum_comm
    _ ≤ ∑ n ∈ range nodes, v (alphaVar Kr) := sum_le_sum fun n hn ↦ h.load n (mem_range.mp hn)
    _ = nodes * v (alphaVar Kr) := by simp

theorem ceil_le (hnodes : 0 < nodes) (h : Solves nodes Kr v) :
    ⌈(Kr.sum : ℚ) / nodes⌉ ≤ v (alphaVar Kr) := by
  have hpos : (0 : ℚ) < nodes := Nat.cast_pos.mpr hnodes
  have hcast : ((Kr.sum : Int) : ℚ) ≤ ((nodes * v (alphaVar Kr) : Int) : ℚ) :=
    Int.cast_le.mpr (sum_le h)
  rw [Int.cast_mul, Int.cast_natCast, Int.cast_natCast] at hcast
  rwa [Int.ceil_le, div_le_iff₀' hpos]

end Counting

section Placements

variable {nodes : ℕ} {Kr : List ℕ}

theorem xVar_inj {i k n i' k' n' : ℕ} (h : xVar i k n = xVar i' k' n') :
    i = i' ∧ k = k' ∧ n = n' := by
  simp only [xVar, LpVariable.mk.injEq, List.cons.injEq, and_true, true_and] at h
  exact ⟨numeral_inj h.1, numeral_inj h.2.1, numeral_inj h.2.2⟩

theorem xVar_ne_alphaVar (i k n : ℕ) : xVar i k n ≠ alphaVar Kr := by
  intro h
  simp [xVar, alphaVar] at h

def values (P : Placement nodes Kr.length (size Kr)) (x : LpVariable) : Int :=
  if x = alphaVar Kr then P.maxLoad
  else if ∃ i ∈ range Kr.length, ∃ k ∈ range (size Kr i), x = xVar i k (P.bin i k) then 1
  else 0

variable (P : Placement nodes Kr.length (size Kr))

theorem values_alphaVar : values P (alphaVar Kr) = P.maxLoad := if_pos rfl

theorem values_xVar {i k : ℕ} (hi : i < Kr.length) (hk : k < size Kr i) (n : ℕ) :
    values P (xVar i k n) = if P.bin i k = n then 1 else 0 := by
  have hplaced : (∃ i' ∈ range Kr.length, ∃ k' ∈ range (size Kr i'),
      xVar i k n = xVar i' k' (P.bin i' k')) ↔ P.bin i k = n := by
    constructor
    · intro h
      obtain ⟨i', -, k', -, h⟩ := h
      obtain ⟨rfl, rfl, rfl⟩ := xVar_inj h
      rfl
    · intro h
      subst h
      exact ⟨i, mem_range.mpr hi, k, mem_range.mpr hk, rfl⟩
  rw [values, if_neg (xVar_ne_alphaVar i k n)]
  simp only [hplaced]

theorem sum_values {i : ℕ} (hi : i < Kr.length) (n : ℕ) :
    ∑ k ∈ range (size Kr i), values P (xVar i k n) = P.share i n := by
  rw [sum_congr rfl fun k hk ↦ values_xVar P hi (mem_range.mp hk) n, Placement.sum_indicator]

theorem values_solve (hload : P.maxLoad ≤ longest Kr) : Solves nodes Kr (values P) where
  alpha := by
    rw [values_alphaVar]
    exact ⟨Int.natCast_nonneg _, Int.ofNat_le.mpr hload⟩
  bounds i hi k hk n _ := by
    rw [values_xVar P hi hk]
    split_ifs <;> simp
  load n hn := by
    rw [sum_congr rfl fun i hi ↦ sum_values P (mem_range.mp hi) n, values_alphaVar, ← Nat.cast_sum]
    exact Int.ofNat_le.mpr (P.load_le_maxLoad hn)
  spread n _ i hi := by
    rw [sum_values P hi]
    exact_mod_cast P.share_le_one hi n
  node i hi k hk := by
    rw [sum_congr rfl fun n _ ↦ values_xVar P hi hk n, sum_ite_eq,
      if_pos (mem_range.mpr (P.bin_lt i hi k hk))]

/-- The placement, with its greatest load for the objective, is a feasible solution. -/
def Accepts (prob : LpProblem) (P : Placement nodes Kr.length (size Kr)) : Prop :=
  ∃ v, prob.Feasible v ∧ v prob.objective = P.maxLoad ∧
    ∀ i < Kr.length, ∀ k < size Kr i, ∀ n < nodes,
      v (xVar i k n) = if P.bin i k = n then 1 else 0

theorem accepts_iff : Accepts (program nodes Kr) P ↔ P.maxLoad ≤ longest Kr := by
  constructor
  · intro h
    obtain ⟨v, hv, halpha, -⟩ := h
    have hbound : v (alphaVar Kr) ≤ longest Kr := (feasible_iff.mp hv).alpha.2
    have hvalue : v (alphaVar Kr) = P.maxLoad := halpha
    rw [hvalue] at hbound
    exact_mod_cast hbound
  · intro h
    exact ⟨values P, feasible_iff.mpr (values_solve P h), values_alphaVar P,
      fun i hi k hk n _ ↦ values_xVar P hi hk n⟩

end Placements

section Allocations

variable {nodes : ℕ} {Kr : List ℕ}

/-- No placement is rejected exactly if `do_lp` gets through and even the placement that starts
every chain at the first node stays within the bound of `alpha`. -/
theorem placements_accepted_iff (hnodes : 0 < nodes) (hKr : Kr ≠ [])
    (hle : ∀ K ∈ Kr, K ≤ nodes) :
    (∃ prob, doLp nodes Kr = .ok prob ∧
      ∀ P : Placement nodes Kr.length (size Kr), Accepts prob P) ↔
        Buildable nodes Kr ∧ Kr.countP (0 < ·) ≤ longest Kr := by
  have hsize : ∀ i < Kr.length, size Kr i ≤ nodes := fun i hi ↦ hle _ (size_mem hi)
  rw [← occupied_eq]
  constructor
  · intro h
    obtain ⟨prob, hprob, hall⟩ := h
    obtain ⟨hbuildable, rfl⟩ := (doLp_eq_ok hnodes hKr).mp hprob
    have hcrowded := (accepts_iff _).mp (hall (Placement.crowded hsize))
    rw [Placement.crowded_maxLoad hsize hnodes] at hcrowded
    exact ⟨hbuildable, hcrowded⟩
  · intro h
    obtain ⟨hbuildable, hoccupied⟩ := h
    refine ⟨program nodes Kr, (doLp_eq_ok hnodes hKr).mpr ⟨hbuildable, rfl⟩, fun P ↦ ?_⟩
    exact (accepts_iff P).mpr (P.maxLoad_le_occupied.trans hoccupied)

theorem placements_accepted_demo : ∃ prob, doLp 5 [2, 3] = .ok prob ∧
    ∀ P : Placement 5 [2, 3].length (size [2, 3]), Accepts prob P :=
  (placements_accepted_iff (by decide) (by decide) (by decide)).mpr
    ⟨(buildable_iff (by decide)).mpr (by decide), by decide⟩

/-- The bound of `alpha` is the length of one chain, but two chains share the only node. -/
theorem placement_rejected : ∃ prob, doLp 1 [1, 1] = .ok prob ∧
    ∃ P : Placement 1 [1, 1].length (size [1, 1]), ¬ Accepts prob P := by
  have hbuildable : Buildable 1 [1, 1] := (buildable_iff (by decide)).mpr (by decide)
  have hsize : ∀ i < [1, 1].length, size [1, 1] i ≤ 1 := by decide
  refine ⟨_, (doLp_eq_ok (by decide) (by decide)).mpr ⟨hbuildable, rfl⟩,
    Placement.crowded hsize, fun haccepts ↦ ?_⟩
  have hload := (accepts_iff _).mp haccepts
  rw [Placement.crowded_maxLoad hsize (by decide)] at hload
  exact absurd hload (by decide)

/-- What the program minimises is the least load that the nodes can share. -/
theorem optimum_eq_ceil (hnodes : 0 < nodes) {prob : LpProblem} (hprob : doLp nodes Kr = .ok prob)
    (hfeasible : ∃ v, prob.Feasible v) :
    IsLeast {a | ∃ v, prob.Feasible v ∧ v prob.objective = a} ⌈(Kr.sum : ℚ) / nodes⌉ := by
  have hKr : Kr ≠ [] := by
    rintro rfl
    cases hprob
  obtain ⟨-, rfl⟩ := (doLp_eq_ok hnodes hKr).mp hprob
  obtain ⟨v, hv⟩ := hfeasible
  have hv := feasible_iff.mp hv
  have hsize : ∀ i < Kr.length, size Kr i ≤ nodes := fun i hi ↦ size_le hv hi
  let P := Placement.cyclic hnodes hsize
  have hmax : (P.maxLoad : Int) = ⌈(Kr.sum : ℚ) / nodes⌉ := by
    rw [Placement.cyclic_maxLoad, sum_size, Int.natCast_ceil_eq_ceil (by positivity)]
  refine ⟨?_, ?_⟩
  · have hload : P.maxLoad ≤ longest Kr := by
      have hle : (P.maxLoad : Int) ≤ longest Kr := by
        rw [hmax]
        exact (ceil_le hnodes hv).trans hv.alpha.2
      exact_mod_cast hle
    exact ⟨values P, feasible_iff.mpr (values_solve P hload), (values_alphaVar P).trans hmax⟩
  · intro a ha
    obtain ⟨w, hw, rfl⟩ := ha
    exact ceil_le hnodes (feasible_iff.mp hw)

theorem optimum_demo :
    IsLeast {a | ∃ v, (program 5 [2, 3]).Feasible v ∧ v (program 5 [2, 3]).objective = a}
      ⌈(([2, 3] : List ℕ).sum : ℚ) / 5⌉ := by
  have hbuildable : Buildable 5 [2, 3] := (buildable_iff (by decide)).mpr (by decide)
  have hsize : ∀ i < [2, 3].length, size [2, 3] i ≤ 5 := by decide
  refine optimum_eq_ceil (by decide) ((doLp_eq_ok (by decide) (by decide)).mpr ⟨hbuildable, rfl⟩) ?_
  have hload := (Placement.maxLoad_le_occupied (Placement.cyclic (by decide) hsize))
  exact ⟨_, feasible_iff.mpr (values_solve _ (hload.trans (by decide)))⟩

end Allocations

end NshSfc.Optimum
