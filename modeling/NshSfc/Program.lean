import NshSfc.Indexing

namespace NshSfc.Program

open Library Allocation Indexing

section Adding

variable {prob prob' : LpProblem}

theorem addAll_cons (prob : LpProblem) (c : Except LpError LpConstraint)
    (cs : List (Except LpError LpConstraint)) : prob.addAll (c :: cs) =
      c >>= fun c ↦ prob.addConstraint c >>= fun prob ↦ prob.addAll cs := by
  rw [LpProblem.addAll, List.foldlM_cons, bind_assoc]
  rfl

theorem addAll_eq_ok {cs : List LpConstraint}
    (h : (prob.names ++ cs.map LpConstraint.name).Nodup) :
    prob.addAll (cs.map .ok) = .ok { prob with constraints := prob.constraints ++ cs } := by
  induction cs generalizing prob with
  | nil =>
    rw [List.append_nil]
    rfl
  | cons c cs ih =>
    have hc : c.name ∉ prob.names := fun hmem ↦
      (List.nodup_append.mp h).2.2 _ hmem _ List.mem_cons_self rfl
    have hadd : prob.addConstraint c = .ok { prob with constraints := prob.constraints ++ [c] } :=
      if_neg hc
    have hrest : LpProblem.addAll { prob with constraints := prob.constraints ++ [c] }
        (cs.map .ok) = .ok { prob with constraints := (prob.constraints ++ [c]) ++ cs } :=
      ih (by simpa [LpProblem.names] using h)
    rw [List.append_assoc, List.singleton_append] at hrest
    calc
      prob.addAll ((c :: cs).map .ok) =
          prob.addConstraint c >>= fun prob ↦ prob.addAll (cs.map .ok) := addAll_cons prob (.ok c) _
      _ = LpProblem.addAll { prob with constraints := prob.constraints ++ [c] } (cs.map .ok) := by
        rw [hadd]
        rfl
      _ = .ok { prob with constraints := prob.constraints ++ c :: cs } := hrest

theorem addAll_taken {cs cs' : List LpConstraint} {c : LpConstraint}
    (hcs : (prob.names ++ cs.map LpConstraint.name).Nodup)
    (hc : c.name ∈ prob.names ++ cs.map LpConstraint.name) :
    prob.addAll ((cs ++ c :: cs').map .ok) = .error (.pulpError c.name) := by
  let filled : LpProblem := { prob with constraints := prob.constraints ++ cs }
  have hfilled : prob.addAll (cs.map .ok) = .ok filled := addAll_eq_ok hcs
  have hmem : c.name ∈ filled.names := by
    rw [LpProblem.names, List.map_append]
    exact hc
  have hadd : filled.addConstraint c = .error (.pulpError c.name) := if_pos hmem
  calc
    prob.addAll ((cs ++ c :: cs').map .ok) =
        prob.addAll (cs.map .ok) >>= fun prob ↦ prob.addAll ((c :: cs').map .ok) := by
      rw [List.map_append, LpProblem.addAll, List.foldlM_append]
      rfl
    _ = filled.addAll ((c :: cs').map .ok) := by
      rw [hfilled]
      rfl
    _ = filled.addConstraint c >>= fun prob ↦ prob.addAll (cs'.map .ok) :=
      addAll_cons filled (.ok c) _
    _ = .error (.pulpError c.name) := by
      rw [hadd]
      rfl

theorem ok_of_addAll {cs : List (Except LpError LpConstraint)} (hp : prob.names.Nodup)
    (h : prob.addAll cs = .ok prob') : ∃ cs', cs = cs'.map .ok ∧
      prob' = { prob with constraints := prob.constraints ++ cs' } ∧ prob'.names.Nodup := by
  induction cs generalizing prob with
  | nil =>
    cases h
    exact ⟨[], rfl, by simp, hp⟩
  | cons c cs ih =>
    rw [addAll_cons] at h
    obtain ⟨c, rfl, hrest⟩ := bind_eq_ok h
    obtain ⟨prob₁, hadd, hrest⟩ := bind_eq_ok hrest
    unfold LpProblem.addConstraint at hadd
    split_ifs at hadd with hc
    cases hadd
    have hnodup : (prob.names ++ [c.name]).Nodup := by
      rw [List.nodup_append]
      exact ⟨hp, List.nodup_singleton _, fun a ha b hb ↦ by
        rw [List.mem_singleton.mp hb]
        exact fun heq ↦ hc (heq ▸ ha)⟩
    obtain ⟨cs', rfl, rfl, hnames⟩ := ih (by simpa [LpProblem.names] using hnodup) hrest
    exact ⟨c :: cs', rfl, by simp, by simpa using hnames⟩

end Adding

/-- When every variable is found: the requests from the tenth one on have no VNFs, nor have those
whose number is a character of one of theirs. -/
structure Accessible (Kr : List ℕ) : Prop where
  late : ∀ j < Kr.length, 9 ≤ j → size Kr j = 0
  mentioned : ∀ j < Kr.length, 9 ≤ j → ∀ i < 9, Mentions j i → size Kr i = 0

/-- When `do_lp` gets through: no two names of constraints coincide either. -/
structure Buildable (nodes : ℕ) (Kr : List ℕ) : Prop extends Accessible Kr where
  names : ¬ (11 ≤ nodes ∧ 11 ≤ Kr.length)

theorem buildable_iff {nodes : ℕ} {Kr : List ℕ} (hpos : ∀ i < Kr.length, 0 < size Kr i) :
    Buildable nodes Kr ↔ Kr.length ≤ 9 := by
  constructor
  · intro h
    by_contra hlt
    have hlate := h.late 9 (by omega) le_rfl
    have hpos := hpos 9 (by omega)
    omega
  · intro h
    exact ⟨⟨fun j hj hj9 ↦ by omega, fun j hj hj9 ↦ by omega⟩, fun hlarge ↦ by omega⟩

def xVar (i k n : ℕ) : LpVariable := ⟨["x", numeral i, numeral k, numeral n], 0, 1⟩

def longest (Kr : List ℕ) : ℕ := Kr.max?.getD 0

def alphaVar (Kr : List ℕ) : LpVariable := ⟨["alpha"], 0, longest Kr⟩

section Rows

variable (nodes : ℕ) (Kr : List ℕ)

def loadRow (n : ℕ) : LpConstraint where
  name := "(1)" ++ numeral n
  terms := ((List.range Kr.length).flatMap fun i ↦
    (List.range (size Kr i)).map fun k ↦ (1, xVar i k n)) ++ [(-1, alphaVar Kr)]
  sense := .le
  rhs := 0

def spreadRow (n i : ℕ) : LpConstraint where
  name := "(2)" ++ numeral n ++ numeral i
  terms := (List.range (size Kr i)).map fun k ↦ (1, xVar i k n)
  sense := .le
  rhs := 1

def nodeRow (i k : ℕ) : LpConstraint where
  name := "(3)" ++ numeral i ++ numeral k
  terms := (List.range nodes).map fun n ↦ (1, xVar i k n)
  sense := .eq
  rhs := 1

def loadRows : List LpConstraint := (List.range nodes).map (loadRow Kr)

def spreadRows : List LpConstraint :=
  (List.range nodes).flatMap fun n ↦ (List.range Kr.length).map (spreadRow Kr n)

def nodeRows : List LpConstraint :=
  (List.range Kr.length).flatMap fun i ↦ (List.range (size Kr i)).map (nodeRow nodes i)

/-- The program that `do_lp` is meant to build. -/
def program : LpProblem where
  objective := alphaVar Kr
  constraints := loadRows nodes Kr ++ spreadRows nodes Kr ++ nodeRows nodes Kr

end Rows

section Summands

variable {nodes : ℕ} {Kr : List ℕ}

theorem lookup_numeral {α : Type} {f : String → α} {m k : ℕ} (hk : k < m) :
    ((numerals m).map fun a ↦ (a, f a)).lookup (numeral k) = some (f (numeral k)) := by
  have hmem : numeral k ∈ numerals m := List.mem_map.mpr ⟨k, List.mem_range.mpr hk, rfl⟩
  rw [lookup_map_self, if_pos hmem]

theorem Accessible.early (h : Accessible Kr) {i : ℕ} (hi : i < Kr.length)
    (hsize : 0 < size Kr i) : i < 9 ∧ ∀ j < Kr.length, 9 ≤ j → ¬ Mentions j i := by
  have hlt : i < 9 := by
    by_contra h9
    have := h.late i hi (not_lt.mp h9)
    omega
  refine ⟨hlt, fun j hj hj9 hc ↦ ?_⟩
  have := h.mentioned j hj hj9 i hlt hc
  omega

theorem summand_eq (h : Accessible Kr) {i k n : ℕ} (hi : i < Kr.length) (hk : k < size Kr i)
    (hn : n < nodes) : summand (xRkn nodes Kr) (numeral i) (numeral k) (numeral n) =
      .ok (1, xVar i k n) := by
  obtain ⟨hlt, hlate⟩ := h.early hi (Nat.zero_lt_of_lt hk)
  have hr : Dict.get (xRkn nodes Kr) (numeral i) =
      .ok (variablesOf nodes (numeral i) (numerals (size Kr i))) :=
    get_eq_ok.mpr (lookup_early hi hlt hlate)
  rw [summand, hr]
  have hv : (variablesOf nodes (numeral i) (numerals (size Kr i))).get (numeral k) =
      .ok ((numerals nodes).map fun n ↦ (n, ⟨["x", numeral i, numeral k, n], 0, 1⟩)) :=
    get_eq_ok.mpr (lookup_numeral hk)
  change (variablesOf nodes (numeral i) (numerals (size Kr i))).get (numeral k) >>= _ = _
  rw [hv]
  have hx : Dict.get ((numerals nodes).map fun n ↦
      (n, (⟨["x", numeral i, numeral k, n], 0, 1⟩ : LpVariable))) (numeral n) = .ok (xVar i k n) :=
    get_eq_ok.mpr (lookup_numeral hn)
  change Dict.get _ _ >>= _ = _
  rw [hx]
  rfl

theorem sum_eq (h : Accessible Kr) {i n : ℕ} (hi : i < Kr.length) (hn : n < nodes) :
    ((numerals (size Kr i)).mapM fun k ↦ summand (xRkn nodes Kr) (numeral i) k (numeral n)) =
      .ok ((List.range (size Kr i)).map fun k ↦ (1, xVar i k n)) := by
  rw [numerals, List.mapM_map]
  exact mapM_eq_ok fun k hk ↦ summand_eq h hi (List.mem_range.mp hk) hn

theorem loadConstraint_eq (h : Accessible Kr) {n : ℕ} (hn : n < nodes) :
    loadConstraint (xRkn nodes Kr) (alphaVar Kr) Kr (numeral n) = .ok (loadRow Kr n) := by
  have hsums : ((requests Kr).mapM fun r ↦ r.2.mapM fun k ↦
      summand (xRkn nodes Kr) r.1 k (numeral n)) = .ok ((List.range Kr.length).map fun i ↦
        (List.range (size Kr i)).map fun k ↦ (1, xVar i k n)) := by
    rw [requests_eq, List.mapM_map]
    exact mapM_eq_ok fun i hi ↦ sum_eq h (List.mem_range.mp hi) hn
  rw [loadConstraint, hsums]
  rfl

theorem spreadConstraint_eq (h : Accessible Kr) {n i : ℕ} (hn : n < nodes) (hi : i < Kr.length) :
    spreadConstraint (xRkn nodes Kr) (numeral n) (numeral i, numerals (size Kr i)) =
      .ok (spreadRow Kr n i) := by
  rw [spreadConstraint, sum_eq h hi hn]
  rfl

theorem nodeConstraint_eq (h : 0 < nodes → Accessible Kr) {i k : ℕ} (hi : i < Kr.length)
    (hk : k < size Kr i) : nodeConstraint (xRkn nodes Kr) nodes (numeral i) (numeral k) =
      .ok (nodeRow nodes i k) := by
  have hsum : ((numerals nodes).mapM fun n ↦ summand (xRkn nodes Kr) (numeral i) (numeral k) n) =
      .ok ((List.range nodes).map fun n ↦ (1, xVar i k n)) := by
    rw [numerals, List.mapM_map]
    refine mapM_eq_ok fun n hn ↦ ?_
    have hn := List.mem_range.mp hn
    exact summand_eq (h (Nat.zero_lt_of_lt hn)) hi hk hn
  rw [nodeConstraint, hsum]
  rfl

end Summands

section Building

variable {nodes : ℕ} {Kr : List ℕ}

def built (nodes : ℕ) (Kr : List ℕ) : List (Except LpError LpConstraint) :=
  (numerals nodes).map (loadConstraint (xRkn nodes Kr) (alphaVar Kr) Kr) ++
    ((numerals nodes).flatMap fun n ↦ (requests Kr).map (spreadConstraint (xRkn nodes Kr) n)) ++
      (requests Kr).flatMap fun r ↦ r.2.map (nodeConstraint (xRkn nodes Kr) nodes r.1)

theorem doLp_eq_addAll (hKr : Kr ≠ []) :
    doLp nodes Kr = LpProblem.addAll ⟨alphaVar Kr, []⟩ (built nodes Kr) := by
  obtain ⟨bound, hbound⟩ : ∃ bound, Kr.max? = some bound :=
    Option.isSome_iff_exists.mp (List.isSome_max?_of_ne_nil hKr)
  simp only [doLp, hbound, built, alphaVar, longest, LpProblem.addAll, List.foldlM_append,
    bind_assoc, Option.getD_some]

theorem built_eq (h : 0 < nodes → Accessible Kr) :
    built nodes Kr = (program nodes Kr).constraints.map .ok := by
  have hload : (numerals nodes).map (loadConstraint (xRkn nodes Kr) (alphaVar Kr) Kr) =
      (loadRows nodes Kr).map .ok := by
    rw [numerals, loadRows, List.map_map, List.map_map]
    refine List.map_congr_left fun n hn ↦ ?_
    have hn := List.mem_range.mp hn
    exact loadConstraint_eq (h (Nat.zero_lt_of_lt hn)) hn
  have hspread : ((numerals nodes).flatMap fun n ↦
      (requests Kr).map (spreadConstraint (xRkn nodes Kr) n)) = (spreadRows nodes Kr).map .ok := by
    rw [numerals, spreadRows, List.flatMap_map, List.map_flatMap, requests_eq]
    refine List.flatMap_congr fun n hn ↦ ?_
    have hn := List.mem_range.mp hn
    rw [List.map_map, List.map_map]
    exact List.map_congr_left fun i hi ↦
      spreadConstraint_eq (h (Nat.zero_lt_of_lt hn)) hn (List.mem_range.mp hi)
  have hnode : ((requests Kr).flatMap fun r ↦
      r.2.map (nodeConstraint (xRkn nodes Kr) nodes r.1)) = (nodeRows nodes Kr).map .ok := by
    rw [requests_eq, nodeRows, List.flatMap_map, List.map_flatMap]
    refine List.flatMap_congr fun i hi ↦ ?_
    rw [numerals, List.map_map, List.map_map]
    exact List.map_congr_left fun k hk ↦
      nodeConstraint_eq h (List.mem_range.mp hi) (List.mem_range.mp hk)
  rw [built, hload, hspread, hnode, program, List.map_append, List.map_append]

theorem nodup_pairs {f : ℕ → ℕ → String} {n : ℕ} {m : ℕ → ℕ}
    (hinj : ∀ a < n, ∀ b < m a, ∀ a' < n, ∀ b' < m a', f a b = f a' b' → a = a' ∧ b = b') :
    ((List.range n).flatMap fun a ↦ (List.range (m a)).map (f a)).Nodup := by
  refine List.nodup_flatMap.mpr ⟨fun a ha ↦ ?_, ?_⟩
  · refine List.nodup_range.map_on fun b hb b' hb' h ↦ ?_
    have ha := List.mem_range.mp ha
    exact (hinj a ha b (List.mem_range.mp hb) a ha b' (List.mem_range.mp hb') h).2
  · refine List.nodup_range.imp_of_mem fun {a a'} ha ha' hne s hs hs' ↦ ?_
    obtain ⟨b, hb, rfl⟩ := List.mem_map.mp hs
    obtain ⟨b', hb', h⟩ := List.mem_map.mp hs'
    exact hne (hinj a (List.mem_range.mp ha) b (List.mem_range.mp hb) a' (List.mem_range.mp ha') b'
      (List.mem_range.mp hb') h.symm).1

theorem ne_of_nodup_pairs {f : ℕ → ℕ → String} {n : ℕ} {m : ℕ → ℕ}
    (h : ((List.range n).flatMap fun a ↦ (List.range (m a)).map (f a)).Nodup) {a b a' b' : ℕ}
    (hlt : a < a') (ha' : a' < n) (hb : b < m a) (hb' : b' < m a') : f a b ≠ f a' b' := by
  have hpair := (List.nodup_flatMap.mp h).2
  have hdisjoint := List.pairwise_iff_getElem.mp hpair a a' (by simp; omega) (by simpa using ha') hlt
  rw [List.getElem_range, List.getElem_range] at hdisjoint
  intro heq
  exact hdisjoint (List.mem_map_of_mem (List.mem_range.mpr hb))
    (heq ▸ List.mem_map_of_mem (List.mem_range.mpr hb'))

theorem nodup_loadRows : ((loadRows nodes Kr).map LpConstraint.name).Nodup := by
  rw [loadRows, List.map_map]
  refine List.nodup_range.map fun n n' h ↦ numeral_inj ?_
  exact (String.append_right_inj _).mp h

theorem nodup_spreadRows (hsmall : nodes ≤ 10 ∨ Kr.length ≤ 10) :
    ((spreadRows nodes Kr).map LpConstraint.name).Nodup := by
  rw [spreadRows, List.map_flatMap]
  simp only [List.map_map]
  refine nodup_pairs fun n hn i hi n' hn' i' hi' h ↦ ?_
  have happend : "(2)" ++ numeral n ++ numeral i = "(2)" ++ numeral n' ++ numeral i' := h
  rw [String.append_assoc, String.append_assoc, String.append_right_inj] at happend
  exact numeral_append_inj (by omega) happend

theorem nodup_nodeRows (hlate : ∀ i < Kr.length, 9 ≤ i → size Kr i = 0) :
    ((nodeRows nodes Kr).map LpConstraint.name).Nodup := by
  have hlt : ∀ {i k}, i < Kr.length → k < size Kr i → i < 10 := by
    intro i k hi hk
    by_contra h10
    have := hlate i hi (by omega)
    omega
  rw [nodeRows, List.map_flatMap]
  simp only [List.map_map]
  refine nodup_pairs fun i hi k hk i' hi' k' hk' h ↦ ?_
  have happend : "(3)" ++ numeral i ++ numeral k = "(3)" ++ numeral i' ++ numeral k' := h
  rw [String.append_assoc, String.append_assoc, String.append_right_inj] at happend
  exact numeral_append_inj (.inl ⟨hlt hi hk, hlt hi' hk'⟩) happend

theorem family_of_mem {c : LpConstraint} :
    (c ∈ loadRows nodes Kr → c.name.toList[1]? = some '1') ∧
    (c ∈ spreadRows nodes Kr → c.name.toList[1]? = some '2') ∧
    (c ∈ nodeRows nodes Kr → c.name.toList[1]? = some '3') := by
  refine ⟨fun hc ↦ ?_, fun hc ↦ ?_, fun hc ↦ ?_⟩
  · obtain ⟨n, -, rfl⟩ := List.mem_map.mp hc
    simp [loadRow]
  · obtain ⟨n, -, hc⟩ := List.mem_flatMap.mp hc
    obtain ⟨i, -, rfl⟩ := List.mem_map.mp hc
    simp [spreadRow]
  · obtain ⟨i, -, hc⟩ := List.mem_flatMap.mp hc
    obtain ⟨k, -, rfl⟩ := List.mem_map.mp hc
    simp [nodeRow]

theorem ne_of_family {cs cs' : List LpConstraint} {a b : Char} (hab : a ≠ b)
    (hcs : ∀ c ∈ cs, c.name.toList[1]? = some a) (hcs' : ∀ c ∈ cs', c.name.toList[1]? = some b) :
    ∀ s ∈ cs.map LpConstraint.name, ∀ s' ∈ cs'.map LpConstraint.name, s ≠ s' := by
  intro s hs s' hs' heq
  obtain ⟨c, hc, rfl⟩ := List.mem_map.mp hs
  obtain ⟨c', hc', rfl⟩ := List.mem_map.mp hs'
  have ha := hcs c hc
  rw [heq, hcs' c' hc'] at ha
  exact hab (Option.some.inj ha).symm

theorem nodup_loadRows_append {m : ℕ} (h : ((spreadRows m Kr).map LpConstraint.name).Nodup) :
    ((loadRows nodes Kr ++ spreadRows m Kr).map LpConstraint.name).Nodup := by
  rw [List.map_append, List.nodup_append]
  exact ⟨nodup_loadRows, h, ne_of_family (by decide : '1' ≠ '2') (fun _ ↦ family_of_mem.1)
    fun _ ↦ family_of_mem.2.1⟩

theorem nodup_names_iff : (program nodes Kr).names.Nodup ↔
    ((spreadRows nodes Kr).map LpConstraint.name).Nodup ∧
      ((nodeRows nodes Kr).map LpConstraint.name).Nodup := by
  rw [LpProblem.names, program, List.map_append, List.nodup_append]
  constructor
  · intro h
    rw [List.map_append, List.nodup_append] at h
    exact ⟨h.1.2.1, h.2.1⟩
  · intro h
    refine ⟨nodup_loadRows_append h.1, h.2, ?_⟩
    rw [List.map_append]
    intro s hs s' hs'
    rcases List.mem_append.mp hs with hs | hs
    · exact ne_of_family (by decide : '1' ≠ '3') (fun _ ↦ family_of_mem.1)
        (fun _ ↦ family_of_mem.2.2) s hs s' hs'
    · exact ne_of_family (by decide : '2' ≠ '3') (fun _ ↦ family_of_mem.2.1)
        (fun _ ↦ family_of_mem.2.2) s hs s' hs'

theorem nodup_names (h : Buildable nodes Kr) : (program nodes Kr).names.Nodup := by
  have hsmall : nodes ≤ 10 ∨ Kr.length ≤ 10 := by
    by_contra hlarge
    exact h.names (by omega)
  exact nodup_names_iff.mpr ⟨nodup_spreadRows hsmall, nodup_nodeRows h.late⟩

theorem spread_overlap (hnodes : 11 ≤ nodes) (hlength : 11 ≤ Kr.length) :
    ¬ ((spreadRows nodes Kr).map LpConstraint.name).Nodup := by
  intro hspread
  rw [spreadRows, List.map_flatMap] at hspread
  simp only [List.map_map] at hspread
  have hne := ne_of_nodup_pairs hspread (by decide : 0 < 10) (by omega) (by omega : 10 < Kr.length)
    (by omega : 0 < Kr.length)
  have hname : "(2)" ++ numeral 0 ++ numeral 10 = "(2)" ++ numeral 10 ++ numeral 0 := by decide
  exact hne hname

theorem names_overlap (hnodes : 11 ≤ nodes) (hlength : 11 ≤ Kr.length) :
    ¬ (program nodes Kr).names.Nodup :=
  fun h ↦ spread_overlap hnodes hlength (nodup_names_iff.mp h).1

theorem variables_found (hnodes : 0 < nodes) (hbuilt : ∀ c ∈ built nodes Kr, ∃ c', c = .ok c')
    {i k : ℕ} (hi : i < Kr.length) (hk : k < size Kr i) : ∃ d e,
      (xRkn nodes Kr).lookup (numeral i) = some d ∧ d.lookup (numeral k) = some e := by
  have hmem : spreadConstraint (xRkn nodes Kr) (numeral 0) (numeral i, numerals (size Kr i)) ∈
      built nodes Kr := by
    refine List.mem_append.mpr (.inl (List.mem_append.mpr (.inr (List.mem_flatMap.mpr ?_))))
    exact ⟨numeral 0, List.mem_map.mpr ⟨0, List.mem_range.mpr hnodes, rfl⟩,
      List.mem_map.mpr ⟨_, mem_requests.mpr ⟨i, hi, rfl⟩, rfl⟩⟩
  obtain ⟨c, hc⟩ := hbuilt _ hmem
  obtain ⟨sum, hsum, -⟩ := bind_eq_ok hc
  obtain ⟨t, ht⟩ := ok_of_mapM hsum (numeral k) (List.mem_map.mpr ⟨k, List.mem_range.mpr hk, rfl⟩)
  rw [summand] at ht
  obtain ⟨d, hd, hrest⟩ := bind_eq_ok ht
  obtain ⟨e, hde, -⟩ := bind_eq_ok hrest
  exact ⟨d, e, get_eq_ok.mp hd, get_eq_ok.mp hde⟩

theorem accessible_of_built (hnodes : 0 < nodes)
    (hbuilt : ∀ c ∈ built nodes Kr, ∃ c', c = .ok c') : Accessible Kr := by
  have hlate : ∀ j < Kr.length, 9 ≤ j → size Kr j = 0 := by
    intro j hj hj9
    by_contra hpos
    obtain ⟨d, e, hd, -⟩ := variables_found hnodes hbuilt hj (Nat.pos_of_ne_zero hpos)
    rw [xRkn, lookup_longer _ (numeral_ne_singleton hj9)] at hd
    cases hd
  refine ⟨hlate, fun j hj hj9 i hi9 hc ↦ ?_⟩
  by_contra hpos
  obtain ⟨d, e, hd, he⟩ := variables_found hnodes hbuilt (by omega) (Nat.pos_of_ne_zero hpos)
  rw [lookup_mentioned hi9 hj hj9 hc hlate] at hd
  cases hd
  cases he

theorem program_of_doLp {prob : LpProblem} (h : doLp nodes Kr = .ok prob) :
    (0 < nodes → Accessible Kr) ∧ (program nodes Kr).names.Nodup ∧ prob = program nodes Kr := by
  have hKr : Kr ≠ [] := by
    rintro rfl
    cases h
  rw [doLp_eq_addAll hKr] at h
  have hempty : (⟨alphaVar Kr, []⟩ : LpProblem).names.Nodup := List.nodup_nil
  obtain ⟨cs, hcs, rfl, hnames⟩ := ok_of_addAll hempty h
  have haccessible : 0 < nodes → Accessible Kr := by
    intro hnodes
    refine accessible_of_built hnodes fun c hc ↦ ?_
    rw [hcs] at hc
    obtain ⟨c', -, rfl⟩ := List.mem_map.mp hc
    exact ⟨c', rfl⟩
  have hrows : cs = (program nodes Kr).constraints := by
    rw [built_eq haccessible] at hcs
    exact (List.map_injective_iff.mpr (fun _ _ ↦ Except.ok.inj) hcs).symm
  subst hrows
  exact ⟨haccessible, hnames, rfl⟩

theorem doLp_eq_ok (hnodes : 0 < nodes) (hKr : Kr ≠ []) {prob : LpProblem} :
    doLp nodes Kr = .ok prob ↔ Buildable nodes Kr ∧ prob = program nodes Kr := by
  constructor
  · intro h
    obtain ⟨haccessible, hnames, hprob⟩ := program_of_doLp h
    exact ⟨⟨haccessible hnodes, fun ⟨hn, hl⟩ ↦ names_overlap hn hl hnames⟩, hprob⟩
  · intro h
    obtain ⟨h, rfl⟩ := h
    have hadd : LpProblem.addAll ⟨alphaVar Kr, []⟩ ((program nodes Kr).constraints.map .ok) =
        .ok (program nodes Kr) := addAll_eq_ok (nodup_names h)
    rw [doLp_eq_addAll hKr, built_eq fun _ ↦ h.toAccessible, hadd]

theorem spreadRows_split {n : ℕ} (hn : n < nodes) (hlength : 0 < Kr.length) :
    ∃ rows, spreadRows nodes Kr = spreadRows n Kr ++ spreadRow Kr n 0 :: rows := by
  obtain ⟨m, rfl⟩ := Nat.exists_eq_add_of_lt hn
  obtain ⟨l, hl⟩ := Nat.exists_eq_add_of_lt hlength
  simp only [spreadRows, Nat.add_assoc, List.range_add, List.flatMap_append, hl,
    List.range_succ_eq_map]
  exact ⟨_, rfl⟩

/-- On 11 or more nodes and with 11 or more requests, the first name that is already taken is that
of request 1 on node 11. -/
theorem doLp_taken (h : Accessible Kr) (hnodes : 11 ≤ nodes) (hlength : 11 ≤ Kr.length) :
    doLp nodes Kr = .error (.pulpError "(2)111") := by
  have hKr : Kr ≠ [] := List.ne_nil_of_length_pos (by omega)
  obtain ⟨rows, hrows⟩ := spreadRows_split hnodes (by omega : 0 < Kr.length)
  have hconstraints : (program nodes Kr).constraints =
      (loadRows nodes Kr ++ spreadRows 10 Kr) ++
        spreadRow Kr 10 0 :: (rows ++ nodeRows nodes Kr) := by
    rw [program, hrows]
    simp only [List.append_assoc, List.cons_append]
  have hfirst : spreadRow Kr 0 10 ∈ spreadRows 10 Kr :=
    List.mem_flatMap.mpr ⟨0, List.mem_range.mpr (by omega),
      List.mem_map_of_mem (List.mem_range.mpr hlength)⟩
  have hname : (spreadRow Kr 10 0).name = (spreadRow Kr 0 10).name :=
    (by decide : "(2)" ++ numeral 10 ++ numeral 0 = "(2)" ++ numeral 0 ++ numeral 10)
  have hmem : (spreadRow Kr 10 0).name ∈
      (loadRows nodes Kr ++ spreadRows 10 Kr).map LpConstraint.name := by
    rw [hname]
    exact List.mem_map_of_mem (List.mem_append_right _ hfirst)
  rw [doLp_eq_addAll hKr, built_eq fun _ ↦ h, hconstraints]
  -- up to node 10 the names differ
  exact addAll_taken (nodup_loadRows_append (nodup_spreadRows (.inl le_rfl))) hmem

end Building

end NshSfc.Program
