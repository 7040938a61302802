import NshSfc.Library.FlowTable

namespace NshSfc.Library

variable {F V I S : Type} [Fintype F] [DecidableEq V]

def Mod.Commutes (m n : Mod F V I) : Prop :=
  ∀ T : FlowTable F V I, (T.apply m).apply n = (T.apply n).apply m

theorem Mod.Commutes.symm {m n : Mod F V I} (h : m.Commutes n) : n.Commutes m := fun T ↦ (h T).symm

namespace FlowTable

variable {m n : Mod F V I}

theorem commutes_of_disjoint (h : ∀ k, m.Touches k → ¬ n.Touches k) : m.Commutes n := by
  intro T
  funext k
  by_cases hm : m.Touches k
  · rw [apply_of_not_touches (h k hm)]
    exact apply_of_touches hm T (T.apply n)
  · rw [apply_of_not_touches hm (T.apply n)]
    by_cases hn : n.Touches k
    · exact apply_of_touches hn (T.apply m) T
    · rw [apply_of_not_touches hn, apply_of_not_touches hn, apply_of_not_touches hm]

theorem delete_commutes_delete (t u : ℕ) (a b : Match F V) :
    (Mod.delete t a : Mod F V I).Commutes (.delete u b) := by
  intro T
  funext k
  simp only [apply, delete]
  split <;> split <;> rfl

theorem add_commutes_add {k k' : Key F V} (h : k ≠ k') (i j : I) :
    (Mod.add k i).Commutes (.add k' j) := by
  apply commutes_of_disjoint
  intro k'' hk hk'
  exact h (hk.trans hk'.symm)

theorem delete_commutes_add {t : ℕ} {a : Match F V} {k : Key F V}
    (h : ¬ (k.table = t ∧ a ≤ k.fields)) (i : I) : (Mod.delete t a).Commutes (.add k i) := by
  apply commutes_of_disjoint
  intro k' hk hk'
  exact h (hk' ▸ hk)

theorem apply_applyAll {ns : List (Mod F V I)} (h : ∀ n ∈ ns, m.Commutes n) (T : FlowTable F V I) :
    (T.apply m).applyAll ns = (T.applyAll ns).apply m := by
  induction ns generalizing T with
  | nil => rfl
  | cons n ns ih =>
    obtain ⟨hn, hns⟩ := List.forall_mem_cons.mp h
    rw [applyAll_cons, applyAll_cons, hn T, ih hns]

theorem applyAll_comm {ms ns : List (Mod F V I)} (h : ∀ m ∈ ms, ∀ n ∈ ns, m.Commutes n)
    (T : FlowTable F V I) : (T.applyAll ms).applyAll ns = (T.applyAll ns).applyAll ms := by
  induction ms generalizing T with
  | nil => rfl
  | cons m ms ih =>
    obtain ⟨hm, hms⟩ := List.forall_mem_cons.mp h
    rw [applyAll_cons, ih hms, apply_applyAll hm, applyAll_cons]

end FlowTable

/-- Two batches can be delivered in either order when the modifications of one commute with those
of the other on every switch. -/
theorem Fabric.deliver_comm [DecidableEq S] {ms ns : List (S × Mod F V I)}
    (h : ∀ s m n, (s, m) ∈ ms → (s, n) ∈ ns → m.Commutes n) (T : Fabric S F V I) :
    (T.deliver ms).deliver ns = (T.deliver ns).deliver ms := by
  funext s
  apply FlowTable.applyAll_comm
  intro m hm n hn
  exact h s m n (mem_sentTo.mp hm) (mem_sentTo.mp hn)

end NshSfc.Library
