import NshSfc.Library.Match

namespace NshSfc.Library

/-- What identifies an entry: an added entry replaces the one with the same key. -/
structure Key (F V : Type) where
  table : ℕ
  priority : ℕ
  fields : Match F V

instance {F V : Type} [Fintype F] [DecidableEq V] : DecidableEq (Key F V) := fun k k' ↦
  decidable_of_iff (k.table = k'.table ∧ k.priority = k'.priority ∧ k.fields = k'.fields) <| by
    cases k; cases k'; simp

/-- The flow tables of one switch: a key holds at most one entry by construction. -/
def FlowTable (F V I : Type) := Key F V → Option I

inductive Mod (F V I : Type)
  | add : Key F V → I → Mod F V I
  | delete : ℕ → Match F V → Mod F V I

variable {F V I S : Type}

/-- The keys a modification writes or clears. Deletes are non-strict: they reach
every entry of the table that is at least as specific. -/
def Mod.Touches : Mod F V I → Key F V → Prop
  | .add k _, k' => k = k'
  | .delete t m, k' => k'.table = t ∧ m ≤ k'.fields

namespace FlowTable

section Apply

variable [Fintype F] [DecidableEq V]

def empty : FlowTable F V I := fun _ ↦ none

def add (T : FlowTable F V I) (k : Key F V) (i : I) : FlowTable F V I :=
  fun k' ↦ if k = k' then some i else T k'

def delete (T : FlowTable F V I) (t : ℕ) (m : Match F V) : FlowTable F V I :=
  fun k ↦ if k.table = t ∧ m ≤ k.fields then none else T k

def apply (T : FlowTable F V I) : Mod F V I → FlowTable F V I
  | .add k i => T.add k i
  | .delete t m => T.delete t m

def applyAll (T : FlowTable F V I) (ms : List (Mod F V I)) : FlowTable F V I := ms.foldl apply T

@[simp] theorem applyAll_nil (T : FlowTable F V I) : T.applyAll [] = T := rfl

@[simp] theorem applyAll_cons (T : FlowTable F V I) (m : Mod F V I) (ms : List (Mod F V I)) :
    T.applyAll (m :: ms) = (T.apply m).applyAll ms := rfl

theorem applyAll_append (T : FlowTable F V I) (ms ms' : List (Mod F V I)) :
    T.applyAll (ms ++ ms') = (T.applyAll ms).applyAll ms' := List.foldl_append

theorem apply_of_not_touches {m : Mod F V I} {k : Key F V} (h : ¬ m.Touches k)
    (T : FlowTable F V I) : T.apply m k = T k := by
  cases m with
  | add k' i => exact if_neg h
  | delete t m => exact if_neg h

theorem apply_of_touches {m : Mod F V I} {k : Key F V} (h : m.Touches k)
    (T T' : FlowTable F V I) : T.apply m k = T'.apply m k := by
  cases m with
  | add k' i => exact (if_pos h).trans (if_pos h).symm
  | delete t m => exact (if_pos h).trans (if_pos h).symm

theorem apply_eq_some {T : FlowTable F V I} {m : Mod F V I} {k : Key F V} {i : I}
    (h : T.apply m k = some i) : m = .add k i ∨ (T k = some i ∧ ¬ m.Touches k) := by
  by_cases hm : m.Touches k
  · cases m with
    | add k' j =>
      have hk : k' = k := hm
      subst hk
      have : some j = some i := by simpa [apply, add] using h
      exact .inl (by rw [Option.some.inj this])
    | delete t m => simp [apply, delete, hm.1, hm.2] at h
  · exact .inr ⟨(apply_of_not_touches hm T).symm.trans h, hm⟩

theorem applyAll_of_not_touches {ms : List (Mod F V I)} {k : Key F V}
    (h : ∀ m ∈ ms, ¬ m.Touches k) (T : FlowTable F V I) : T.applyAll ms k = T k := by
  induction ms generalizing T with
  | nil => rfl
  | cons m ms ih =>
    rw [applyAll_cons, ih fun n hn ↦ h n (List.mem_cons_of_mem m hn)]
    exact apply_of_not_touches (h m List.mem_cons_self) T

theorem applyAll_congr (ms : List (Mod F V I)) {k : Key F V} {T T' : FlowTable F V I}
    (h : T k = T' k) : T.applyAll ms k = T'.applyAll ms k := by
  induction ms generalizing T T' with
  | nil => exact h
  | cons m ms ih =>
    apply ih
    by_cases hm : m.Touches k
    · exact apply_of_touches hm T T'
    · rw [apply_of_not_touches hm, apply_of_not_touches hm, h]

theorem applyAll_of_touches {ms : List (Mod F V I)} {k : Key F V} (h : ∃ m ∈ ms, m.Touches k)
    (T T' : FlowTable F V I) : T.applyAll ms k = T'.applyAll ms k := by
  induction ms generalizing T T' with
  | nil => simp at h
  | cons m ms ih =>
    by_cases hms : ∃ n ∈ ms, n.Touches k
    · exact ih hms _ _
    · obtain ⟨n, hn, ht⟩ := h
      have hm : m.Touches k := by
        rcases List.mem_cons.mp hn with rfl | hn
        · exact ht
        · exact absurd ⟨n, hn, ht⟩ hms
      exact applyAll_congr ms (apply_of_touches hm T T')

theorem applyAll_eq_some {T : FlowTable F V I} {ms : List (Mod F V I)} {k : Key F V} {i : I}
    (h : T.applyAll ms k = some i) :
    .add k i ∈ ms ∨ (T k = some i ∧ ∀ m ∈ ms, ¬ m.Touches k) := by
  induction ms generalizing T with
  | nil => exact .inr ⟨h, by simp⟩
  | cons m ms ih =>
    rcases ih h with h | ⟨h, hms⟩
    · exact .inl (List.mem_cons_of_mem m h)
    · rcases apply_eq_some h with rfl | ⟨h, hm⟩
      · exact .inl List.mem_cons_self
      · exact .inr ⟨h, List.forall_mem_cons.mpr ⟨hm, hms⟩⟩

theorem applyAll_occupied {ms : List (Mod F V I)} {k : Key F V}
    (hms : ∀ m ∈ ms, m.Touches k → ∃ j, m = .add k j) {T : FlowTable F V I}
    (h : (∃ i, .add k i ∈ ms) ∨ ∃ j, T k = some j) : ∃ j, T.applyAll ms k = some j := by
  induction ms generalizing T with
  | nil => simpa using h
  | cons m ms ih =>
    apply ih fun n hn ↦ hms n (List.mem_cons_of_mem m hn)
    by_cases hm : m.Touches k
    · obtain ⟨j, rfl⟩ := hms m List.mem_cons_self hm
      exact .inr ⟨j, if_pos rfl⟩
    · rcases h with ⟨i, hi⟩ | ⟨j, hj⟩
      · rcases List.mem_cons.mp hi with rfl | hi
        · exact absurd rfl hm
        · exact .inl ⟨i, hi⟩
      · exact .inr ⟨j, (apply_of_not_touches hm T).trans hj⟩

end Apply

structure Applies (T : FlowTable F V I) (t : ℕ) (h : Match F V) (k : Key F V) (i : I) : Prop where
  entry : T k = some i
  table : k.table = t
  fields : k.fields ≤ h

/-- An entry the switch may choose: none that applies has a higher priority.
Several entries are hit at once exactly when overlapping ones share a priority. -/
structure Hits (T : FlowTable F V I) (t : ℕ) (h : Match F V) (k : Key F V) (i : I) : Prop
    extends T.Applies t h k i where
  top : ∀ k' i', T.Applies t h k' i' → k'.priority ≤ k.priority

/-- The only entry the switch can choose: all others that apply have lower priorities. -/
structure Selects (T : FlowTable F V I) (t : ℕ) (h : Match F V) (k : Key F V) (i : I) : Prop
    extends T.Applies t h k i where
  unrivalled : ∀ k' i', T.Applies t h k' i' → k' ≠ k → k'.priority < k.priority

theorem Selects.hits {T : FlowTable F V I} {t : ℕ} {h : Match F V} {k : Key F V} {i : I}
    (hsel : T.Selects t h k i) : T.Hits t h k i where
  toApplies := hsel.toApplies
  top := by
    intro k' i' ha
    by_cases hk : k' = k
    · rw [hk]
    · exact (hsel.unrivalled k' i' ha hk).le

theorem Selects.eq_of_hits {T : FlowTable F V I} {t : ℕ} {h : Match F V} {k k' : Key F V} {i i' : I}
    (hsel : T.Selects t h k i) (hit : T.Hits t h k' i') : k' = k ∧ i' = i := by
  by_cases hk : k' = k
  · subst hk
    exact ⟨rfl, Option.some.inj (hit.entry.symm.trans hsel.entry)⟩
  · have hlt := hsel.unrivalled k' i' hit.toApplies hk
    have hle := hit.top k i hsel.toApplies
    omega

theorem exists_hits {T : FlowTable F V I} {t : ℕ} {h : Match F V} {b : ℕ}
    (hb : ∀ k i, T.Applies t h k i → k.priority ≤ b) {k : Key F V} {i : I} (ha : T.Applies t h k i) :
    ∃ k' i', T.Hits t h k' i' := by
  induction hn : b - k.priority using Nat.strong_induction_on generalizing k i with
  | _ n ih =>
    by_cases htop : ∀ k' i', T.Applies t h k' i' → k'.priority ≤ k.priority
    · exact ⟨k, i, ha, htop⟩
    · push Not at htop
      obtain ⟨k', i', ha', hlt⟩ := htop
      have hk' := hb k' i' ha'
      exact ih (b - k'.priority) (by omega) ha' rfl

section Listed

/-- The list covers the occupied keys, so that lookups can be computed. -/
def Listed (T : FlowTable F V I) (ks : List (Key F V)) : Prop := ∀ k i, T k = some i → k ∈ ks

def addedKeys (ms : List (Mod F V I)) : List (Key F V) :=
  ms.filterMap fun
    | .add k _ => some k
    | .delete _ _ => none

theorem mem_addedKeys {ms : List (Mod F V I)} {k : Key F V} {i : I} (h : .add k i ∈ ms) :
    k ∈ addedKeys ms := List.mem_filterMap.mpr ⟨_, h, rfl⟩

variable [Fintype F] [DecidableEq V]

theorem Listed.applyAll {T : FlowTable F V I} {ks : List (Key F V)} (h : T.Listed ks)
    (ms : List (Mod F V I)) : (T.applyAll ms).Listed (ks ++ addedKeys ms) := by
  intro k i hk
  rcases applyAll_eq_some hk with hadd | ⟨hk, -⟩
  · exact List.mem_append_right _ (mem_addedKeys hadd)
  · exact List.mem_append_left _ (h k i hk)

def hitsIn (T : FlowTable F V I) (ks : List (Key F V)) (t : ℕ) (h : Match F V) (k : Key F V) : Bool :=
  k.table = t ∧ k.fields ≤ h ∧
    ∀ k' ∈ ks, k'.table = t → k'.fields ≤ h → (T k').isSome → k'.priority ≤ k.priority

theorem Listed.hits {T : FlowTable F V I} {ks : List (Key F V)} (hks : T.Listed ks) {t : ℕ}
    {h : Match F V} {k : Key F V} {i : I} (hk : T k = some i) (hin : T.hitsIn ks t h k) :
    T.Hits t h k i := by
  obtain ⟨ht, hf, htop⟩ := by simpa [hitsIn] using hin
  refine ⟨⟨hk, ht, hf⟩, fun k' i' ha ↦ htop k' (hks k' i' ha.entry) ha.table ha.fields ?_⟩
  simp [ha.entry]

end Listed

end FlowTable

section Address

variable {μ : Type} [DecidableEq S]

def sentTo (s : S) (ms : List (S × μ)) : List μ := (ms.filter fun m ↦ m.1 = s).map Prod.snd

theorem mem_sentTo {s : S} {ms : List (S × μ)} {m : μ} : m ∈ sentTo s ms ↔ (s, m) ∈ ms := by
  simp [sentTo]

@[simp] theorem sentTo_nil (s : S) : sentTo s ([] : List (S × μ)) = [] := rfl

theorem sentTo_append (s : S) (ms ms' : List (S × μ)) :
    sentTo s (ms ++ ms') = sentTo s ms ++ sentTo s ms' := by simp [sentTo]

theorem sentTo_cons_self (s : S) (m : μ) (ms : List (S × μ)) :
    sentTo s ((s, m) :: ms) = m :: sentTo s ms := by simp [sentTo]

theorem sentTo_cons_of_ne {s s' : S} (h : s' ≠ s) (m : μ) (ms : List (S × μ)) :
    sentTo s ((s', m) :: ms) = sentTo s ms := by simp [sentTo, h]

end Address

def Fabric (S F V I : Type) := S → FlowTable F V I

namespace Fabric

variable [DecidableEq S] [Fintype F] [DecidableEq V]

def deliver (T : Fabric S F V I) (ms : List (S × Mod F V I)) : Fabric S F V I :=
  fun s ↦ (T s).applyAll (sentTo s ms)

theorem deliver_append (T : Fabric S F V I) (ms ms' : List (S × Mod F V I)) :
    T.deliver (ms ++ ms') = (T.deliver ms).deliver ms' := by
  funext s
  simp only [deliver, sentTo_append, FlowTable.applyAll_append]

theorem deliver_of_not_touches {ms : List (S × Mod F V I)} {s : S} {k : Key F V}
    (h : ∀ m, (s, m) ∈ ms → ¬ m.Touches k) (T : Fabric S F V I) : T.deliver ms s k = T s k :=
  FlowTable.applyAll_of_not_touches (fun m hm ↦ h m (mem_sentTo.mp hm)) (T s)

theorem deliver_eq_some {T : Fabric S F V I} {ms : List (S × Mod F V I)} {s : S} {k : Key F V}
    {i : I} (h : T.deliver ms s k = some i) :
    (s, .add k i) ∈ ms ∨ (T s k = some i ∧ ∀ m, (s, m) ∈ ms → ¬ m.Touches k) := by
  rcases FlowTable.applyAll_eq_some h with h | ⟨h, hms⟩
  · exact .inl (mem_sentTo.mp h)
  · exact .inr ⟨h, fun m hm ↦ hms m (mem_sentTo.mpr hm)⟩

theorem deliver_occupied {ms : List (S × Mod F V I)} {s : S} {k : Key F V}
    (hms : ∀ m, (s, m) ∈ ms → m.Touches k → ∃ j, m = .add k j) {T : Fabric S F V I}
    (h : (∃ i, (s, .add k i) ∈ ms) ∨ ∃ j, T s k = some j) : ∃ j, T.deliver ms s k = some j := by
  refine FlowTable.applyAll_occupied (fun m hm ↦ hms m (mem_sentTo.mp hm)) ?_
  exact h.imp_left fun ⟨i, hi⟩ ↦ ⟨i, mem_sentTo.mpr hi⟩

/-- A batch is forgotten once a later batch touches every key it touched. -/
theorem deliver_deliver_of_covered {first second : List (S × Mod F V I)}
    (h : ∀ s k m, (s, m) ∈ first → m.Touches k → ∃ n, (s, n) ∈ second ∧ n.Touches k)
    (T : Fabric S F V I) : (T.deliver first).deliver second = T.deliver second := by
  funext s k
  by_cases hk : ∃ n ∈ sentTo s second, n.Touches k
  · exact FlowTable.applyAll_of_touches hk _ _
  · apply FlowTable.applyAll_congr
    apply deliver_of_not_touches
    intro m hm ht
    obtain ⟨n, hn, ht⟩ := h s k m hm ht
    exact hk ⟨n, mem_sentTo.mpr hn, ht⟩

theorem deliver_deliver_of_absent {first second : List (S × Mod F V I)} {T : Fabric S F V I}
    (h : ∀ s k m, (s, m) ∈ first → m.Touches k → (∃ n, (s, n) ∈ second ∧ n.Touches k) ∨
      (T s k = none ∧ ∀ i, m ≠ .add k i)) :
    (T.deliver first).deliver second = T.deliver second := by
  funext s k
  by_cases hk : ∃ n ∈ sentTo s second, n.Touches k
  · exact FlowTable.applyAll_of_touches hk _ _
  apply FlowTable.applyAll_congr
  have hsecond : ¬ ∃ n, (s, n) ∈ second ∧ n.Touches k := fun ⟨n, hn, ht⟩ ↦
    hk ⟨n, mem_sentTo.mpr hn, ht⟩
  by_cases hfirst : ∃ m, (s, m) ∈ first ∧ m.Touches k
  · obtain ⟨m, hm, ht⟩ := hfirst
    obtain ⟨habsent, -⟩ := (h s k m hm ht).resolve_left hsecond
    rw [habsent]
    by_contra hsome
    obtain ⟨i, hi⟩ := Option.ne_none_iff_exists'.mp hsome
    rcases deliver_eq_some hi with hadd | ⟨hi, -⟩
    · exact ((h s k _ hadd rfl).resolve_left hsecond).2 i rfl
    · cases habsent.symm.trans hi
  · exact deliver_of_not_touches (fun m hm ht ↦ hfirst ⟨m, hm, ht⟩) T

end Fabric

end NshSfc.Library
