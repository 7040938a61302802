import NshSfc.Optimum

namespace NshSfc.Decoding

open Library Python Allocation Indexing Program Optimum Finset

section Names

variable {i k n : ℕ}

theorem underscore_not_mem_numeral (a : ℕ) : '_' ∉ (numeral a).toList := by
  rw [numeral_toList]
  exact Nat.underscore_not_in_toDigits

theorem intOfString_numeral (a : ℕ) : intOfString (numeral a).toList = .ok (a + 1) := by
  rw [numeral_toList, intOfString_decimal Nat.toDigits_ne_nil
    fun c hc ↦ Nat.isDigit_of_mem_toDigits (by decide) le_rfl hc, Nat.ofDigitChars_ten_toDigits]
  rfl

theorem splitOn_text (i k n : ℕ) : (xVar i k n).text.splitOn '_' =
    [['x'], (numeral i).toList, (numeral k).toList, (numeral n).toList] := by
  refine List.splitOn_intercalate '_' (fun part hpart ↦ ?_) (by simp [xVar])
  simp only [xVar, List.map_cons, List.map_nil, List.mem_cons, List.not_mem_nil, or_false] at hpart
  rcases hpart with rfl | rfl | rfl | rfl
  · decide
  · exact underscore_not_mem_numeral i
  · exact underscore_not_mem_numeral k
  · exact underscore_not_mem_numeral n

theorem head_text (i k n : ℕ) : (xVar i k n).text.head? = some 'x' := by
  simp [LpVariable.text, xVar, List.intercalate, List.intersperse]

end Names

section Cells

variable {nodes : ℕ} {Kr : List ℕ} {v : LpVariable → Int}

def table (Kr : List ℕ) (g : ℕ → ℕ → Option Int) : Cells :=
  (List.range Kr.length).map fun i ↦ (List.range (size Kr i)).map (g i)

theorem emptyCells_eq (Kr : List ℕ) : emptyCells Kr = table Kr fun _ _ ↦ none := by
  have hrows := congrArg (List.map fun K ↦ List.replicate K (none : Option Int)) (map_size Kr)
  rw [List.map_map] at hrows
  simpa [emptyCells, table, Function.comp_def, List.map_const'] using hrows.symm

theorem set_map_range {α : Type} (f : ℕ → α) (m i : ℕ) (a : α) :
    ((List.range m).map f).set i a = (List.range m).map (Function.update f i a) := by
  refine List.ext_getElem (by simp) fun j hj _ ↦ ?_
  rw [List.getElem_set, List.getElem_map, List.getElem_map, List.getElem_range, Function.update_apply]
  simp only [eq_comm]

theorem setItem_table (g : ℕ → ℕ → Option Int) {i k : ℕ} (hi : i < Kr.length) (hk : k < size Kr i)
    (n : Int) : (do
      let cells ← getItem (table Kr g) i
      setItem (table Kr g) i (← setItem cells k (some n))) =
        .ok (table Kr (Function.update g i (Function.update (g i) k (some n)))) := by
  have hrow : getItem (table Kr g) i = .ok ((List.range (size Kr i)).map (g i)) := by
    rw [getItem_natCast (by simpa [table] using hi)]
    simp [table]
  have hcell : setItem ((List.range (size Kr i)).map (g i)) k (some n) =
      .ok ((List.range (size Kr i)).map (Function.update (g i) k (some n))) := by
    rw [setItem_natCast (by simpa using hk), set_map_range]
  have hset : setItem (table Kr g) i ((List.range (size Kr i)).map
      (Function.update (g i) k (some n))) =
        .ok (table Kr (Function.update g i (Function.update (g i) k (some n)))) := by
    rw [setItem_natCast (by simpa [table] using hi), table, set_map_range]
    refine congrArg Except.ok (List.map_congr_left fun j _ ↦ ?_)
    by_cases hj : j = i
    · subst hj
      simp
    · simp [hj]
  rw [hrow]
  change setItem _ _ _ >>= _ = _
  rw [hcell]
  exact hset

theorem decodeStep_xVar (g : ℕ → ℕ → Option Int) {i k n : ℕ} (hi : i < Kr.length)
    (hk : k < size Kr i) : decodeStep v (table Kr g) (xVar i k n) =
      .ok (table Kr (if v (xVar i k n) = 1 then
        Function.update g i (Function.update (g i) k (some n)) else g)) := by
  by_cases hv : v (xVar i k n) = 1
  · have hset := setItem_table g hi hk n
    rw [decodeStep, if_pos ⟨head_text i k n, hv⟩, splitOn_text, if_pos hv]
    have hminus : ∀ a : ℕ, ((a + 1 : Int) - 1) = a := fun a ↦ by omega
    have h1 : getItem [['x'], (numeral i).toList, (numeral k).toList, (numeral n).toList] 1 =
        .ok (numeral i).toList := rfl
    have h2 : getItem [['x'], (numeral i).toList, (numeral k).toList, (numeral n).toList] 2 =
        .ok (numeral k).toList := rfl
    have h3 : getItem [['x'], (numeral i).toList, (numeral k).toList, (numeral n).toList] 3 =
        .ok (numeral n).toList := rfl
    simp only [h1, h2, h3, intOfString_numeral, hminus, Except.bind, Bind.bind] at hset ⊢
    exact hset
  · rw [decodeStep, if_neg (fun h ↦ hv h.2), if_neg hv]

theorem decodeStep_alphaVar (xRes : Cells) : decodeStep v xRes (alphaVar Kr) = .ok xRes := by
  have hhead : (alphaVar Kr).text.head? ≠ some 'x' := by
    simp [LpVariable.text, alphaVar, List.intercalate]
  rw [decodeStep, if_neg fun h ↦ hhead h.1]

theorem table_congr {g g' : ℕ → ℕ → Option Int}
    (h : ∀ i < Kr.length, ∀ k < size Kr i, g i k = g' i k) : table Kr g = table Kr g' := by
  refine List.map_congr_left fun i hi ↦ List.map_congr_left fun k hk ↦ ?_
  exact h i (List.mem_range.mp hi) k (List.mem_range.mp hk)

end Cells

section Loop

variable {nodes : ℕ} {Kr : List ℕ} {v : LpVariable → Int}

def Indicates (v : LpVariable → Int) (P : Placement nodes Kr.length (size Kr)) : Prop :=
  ∀ i < Kr.length, ∀ k < size Kr i, ∀ n < nodes, v (xVar i k n) = if P.bin i k = n then 1 else 0

variable (P : Placement nodes Kr.length (size Kr))

def cells : Cells := table Kr fun i k ↦ some (P.bin i k)

def partly (done : List LpVariable) (i k : ℕ) : Option Int :=
  if xVar i k (P.bin i k) ∈ done then some (P.bin i k) else none

variable {P}

theorem partly_cons_of_ne {x : LpVariable} {i k : ℕ} (h : xVar i k (P.bin i k) ≠ x)
    (done : List LpVariable) : partly P (x :: done) i k = partly P done i k := by
  simp [partly, h]

theorem decodeStep_partly (hv : Indicates v P) {x : LpVariable}
    (hx : x ∈ (program nodes Kr).variables) (done : List LpVariable) :
    decodeStep v (table Kr (partly P done)) x = .ok (table Kr (partly P (x :: done))) := by
  rcases mem_variables hx with rfl | ⟨i, hi, k, hk, n, hn, rfl⟩
  · rw [decodeStep_alphaVar]
    refine congrArg Except.ok (table_congr fun i _ k _ ↦ ?_)
    exact (partly_cons_of_ne (xVar_ne_alphaVar i k _) done).symm
  · rw [decodeStep_xVar _ hi hk]
    refine congrArg Except.ok (table_congr fun i' _ k' _ ↦ ?_)
    have hvalue := hv i hi k hk n hn
    by_cases hbin : P.bin i k = n
    · rw [if_pos hbin] at hvalue
      rw [if_pos hvalue]
      by_cases hcell : i' = i ∧ k' = k
      · obtain ⟨rfl, rfl⟩ := hcell
        simp [partly, hbin]
      · -- another cell keeps what it has
        have hother : xVar i' k' (P.bin i' k') ≠ xVar i k n := fun h ↦
          hcell ⟨(xVar_inj h).1, (xVar_inj h).2.1⟩
        rw [partly_cons_of_ne hother]
        by_cases hrow : i' = i
        · subst hrow
          have hne : k' ≠ k := fun h ↦ hcell ⟨rfl, h⟩
          simp [hne]
        · simp [hrow]
    · -- a variable with value 0 sets no cell
      rw [if_neg hbin] at hvalue
      have hother : xVar i' k' (P.bin i' k') ≠ xVar i k n := by
        intro h
        obtain ⟨rfl, rfl, hn'⟩ := xVar_inj h
        exact hbin hn'
      rw [if_neg (by omega), partly_cons_of_ne hother]

theorem foldlM_decodeStep (hv : Indicates v P) {vars : List LpVariable}
    (hvars : ∀ x ∈ vars, x ∈ (program nodes Kr).variables) (done : List LpVariable) :
    vars.foldlM (decodeStep v) (table Kr (partly P done)) =
      .ok (table Kr (partly P (vars.reverse ++ done))) := by
  induction vars generalizing done with
  | nil => rfl
  | cons x vars ih =>
    obtain ⟨hx, hvars⟩ := List.forall_mem_cons.mp hvars
    rw [List.foldlM_cons, decodeStep_partly hv hx, List.reverse_cons, List.append_assoc]
    exact ih hvars (x :: done)

/-- In whatever order the variables come, and however often, the loop ends with the placement. -/
theorem decode_eq (hv : Indicates v P) {vars : List LpVariable}
    (hvars : ∀ x, x ∈ vars ↔ x ∈ (program nodes Kr).variables) :
    decode v Kr vars = .ok (cells P) := by
  have hempty : emptyCells Kr = table Kr (partly P []) := by
    rw [emptyCells_eq]
    exact table_congr fun _ _ _ _ ↦ by simp [partly]
  rw [decode, hempty, foldlM_decodeStep hv fun x hx ↦ (hvars x).mp hx, cells]
  refine congrArg Except.ok (table_congr fun i hi k hk ↦ ?_)
  have hmem := (hvars _).mpr (xVar_mem_variables hi hk (P.bin_lt i hi k hk))
  simp [partly, hmem]

end Loop

section Solutions

variable {nodes : ℕ} {Kr : List ℕ} {v : LpVariable → Int}

structure Assigned (prob : LpProblem) (v : LpVariable → Int) : Prop where
  binary : ∀ x ∈ prob.variables, x ≠ prob.objective → v x = 0 ∨ v x = 1
  constraints : ∀ c ∈ prob.constraints, c.Holds v

theorem assigned_of_feasible (h : (program nodes Kr).Feasible v) :
    Assigned (program nodes Kr) v := by
  refine ⟨fun x hx hne ↦ ?_, h.constraints⟩
  have hbounds := h.bounds x hx
  rcases mem_variables hx with rfl | ⟨i, -, k, -, n, -, rfl⟩
  · exact absurd rfl hne
  · simp only [xVar] at hbounds ⊢
    omega

theorem sum_indicates {P : Placement nodes Kr.length (size Kr)} (hv : Indicates v P) {n : ℕ}
    (hn : n < nodes) :
    ∑ i ∈ range Kr.length, ∑ k ∈ range (size Kr i), v (xVar i k n) = P.load n := by
  rw [Placement.load, Nat.cast_sum]
  refine sum_congr rfl fun i hi ↦ ?_
  have hi := mem_range.mp hi
  rw [sum_congr rfl fun k hk ↦ hv i hi k (mem_range.mp hk) n hn, Placement.sum_indicator]

/-- Every solution is decoded to a placement, the one that the x variables say. No node has more
than `alpha` VNFs. -/
theorem decode_placement {prob : LpProblem} (hprob : doLp nodes Kr = .ok prob)
    (hv : Assigned prob v) {vars : List LpVariable} (hvars : ∀ x, x ∈ vars ↔ x ∈ prob.variables) :
    ∃ P : Placement nodes Kr.length (size Kr), decode v Kr vars = .ok (cells P) ∧
      Indicates v P ∧ ∀ n < nodes, P.load n ≤ v prob.objective := by
  obtain ⟨-, -, rfl⟩ := program_of_doLp hprob
  obtain ⟨hload, hspread, hnode⟩ := constraints_iff.mp hv.constraints
  obtain ⟨P, hP⟩ := Placement.exists_of_indicator
    (fun i hi k hk n hn ↦ hv.binary _ (xVar_mem_variables hi hk hn) (xVar_ne_alphaVar i k n))
    hnode fun i hi n hn ↦ hspread n hn i hi
  refine ⟨P, decode_eq hP hvars, hP, fun n hn ↦ ?_⟩
  rw [← sum_indicates hP hn]
  exact hload n hn

theorem decode_placement_demo : ∃ v prob, doLp 5 [2, 3] = .ok prob ∧ prob.Feasible v ∧
    ∃ P : Placement 5 [2, 3].length (size [2, 3]),
      decode v [2, 3] prob.variables.reverse = .ok (cells P) ∧ Indicates v P ∧
        ∀ n < 5, P.load n ≤ v prob.objective := by
  have hbuildable : Buildable 5 [2, 3] := (buildable_iff (by decide)).mpr (by decide)
  have hprob : doLp 5 [2, 3] = .ok (program 5 [2, 3]) :=
    (doLp_eq_ok (by decide) (by decide)).mpr ⟨hbuildable, rfl⟩
  have hsize : ∀ i < [2, 3].length, size [2, 3] i ≤ 5 := by decide
  have hload := Placement.maxLoad_le_occupied (Placement.cyclic (by decide) hsize)
  have hfeasible := feasible_iff.mpr (values_solve _ (hload.trans (by decide)))
  exact ⟨_, _, hprob, hfeasible,
    decode_placement hprob (assigned_of_feasible hfeasible) fun x ↦ List.mem_reverse⟩

end Solutions

end NshSfc.Decoding
