import NshSfc.Library.FlowTable

namespace NshSfc.Library

/-- Flow tables whose modifications wait in a queue for each switch. -/
structure Channels (S F V I : Type) where
  tables : Fabric S F V I
  queue : S → List (Mod F V I)

namespace Channels

variable {S F V I : Type} {c : Channels S F V I} {s s' : S} {k : Key F V} {i : I} {m : Mod F V I}

def Holds (c : Channels S F V I) (s : S) (k : Key F V) (i : I) : Prop :=
  c.tables s k = some i ∨ .add k i ∈ c.queue s

section Post

variable [DecidableEq S]

def post (c : Channels S F V I) (ms : List (S × Mod F V I)) : Channels S F V I :=
  { c with queue := fun s ↦ c.queue s ++ sentTo s ms }

@[simp] theorem post_nil (c : Channels S F V I) : c.post [] = c := by simp [post]

@[simp] theorem post_tables (c : Channels S F V I) (ms : List (S × Mod F V I)) :
    (c.post ms).tables = c.tables := rfl

@[simp] theorem post_queue (c : Channels S F V I) (ms : List (S × Mod F V I)) (s : S) :
    (c.post ms).queue s = c.queue s ++ sentTo s ms := rfl

theorem holds_post {ms : List (S × Mod F V I)} :
    (c.post ms).Holds s k i ↔ c.Holds s k i ∨ (s, .add k i) ∈ ms := by
  simp only [Holds, post_tables, post_queue, List.mem_append, mem_sentTo, or_assoc]

end Post

/-- The list covers the keys of the entries that a switch has or is about to add. -/
def Covers (c : Channels S F V I) (s : S) (ks : List (Key F V)) : Prop :=
  ∀ k i, c.Holds s k i → k ∈ ks

theorem Covers.listed {ks : List (Key F V)} (h : c.Covers s ks) : (c.tables s).Listed ks :=
  fun k i hk ↦ h k i (.inl hk)

theorem Covers.post [DecidableEq S] {ks : List (Key F V)} (h : c.Covers s ks)
    (ms : List (S × Mod F V I)) : (c.post ms).Covers s (ks ++ FlowTable.addedKeys (sentTo s ms)) := by
  intro k i hk
  rcases holds_post.mp hk with hk | hk
  · exact List.mem_append_left _ (h k i hk)
  · exact List.mem_append_right _ (FlowTable.mem_addedKeys (mem_sentTo.mpr hk))

section Drained

variable [Fintype F] [DecidableEq V]

/-- The tables once every queue has been processed. -/
def drained (c : Channels S F V I) : Fabric S F V I := fun s ↦ (c.tables s).applyAll (c.queue s)

theorem drained_of_not_touches (h : ∀ m ∈ c.queue s, ¬ m.Touches k) : c.drained s k = c.tables s k :=
  FlowTable.applyAll_of_not_touches h _

theorem holds_of_drained (h : c.drained s k = some i) : c.Holds s k i := by
  rcases FlowTable.applyAll_eq_some h with h | ⟨h, -⟩
  · exact .inr h
  · exact .inl h

def Idle (c : Channels S F V I) : Prop := ∀ s, c.queue s = []

theorem Idle.drained (h : c.Idle) : c.drained = c.tables := by
  funext s
  rw [Channels.drained, h s, FlowTable.applyAll_nil]

end Drained

section Process

variable [DecidableEq S] [Fintype F] [DecidableEq V]

def process (c : Channels S F V I) (s : S) : Channels S F V I :=
  match c.queue s with
  | [] => c
  | m :: ms =>
    { tables := fun s' ↦ if s' = s then (c.tables s').apply m else c.tables s'
      queue := fun s' ↦ if s' = s then ms else c.queue s' }

theorem process_of_cons {ms : List (Mod F V I)} (h : c.queue s = m :: ms) :
    (c.process s).tables s = (c.tables s).apply m ∧ (c.process s).queue s = ms := by
  simp [process, h]

theorem process_cases (c : Channels S F V I) (s s' : S) :
    ((c.process s).tables s' = c.tables s' ∧ (c.process s).queue s' = c.queue s') ∨
    ∃ m ms, c.queue s' = m :: ms ∧ (c.process s).tables s' = (c.tables s').apply m ∧
      (c.process s).queue s' = ms := by
  by_cases hs : s' = s
  · subst hs
    cases hq : c.queue s' with
    | nil => exact .inl (by simp [process, hq])
    | cons m ms => exact .inr ⟨m, ms, rfl, process_of_cons hq⟩
  · left
    unfold process
    split
    · exact ⟨rfl, rfl⟩
    · exact ⟨if_neg hs, if_neg hs⟩

theorem drained_post (c : Channels S F V I) (ms : List (S × Mod F V I)) :
    (c.post ms).drained = c.drained.deliver ms := by
  funext s
  exact FlowTable.applyAll_append _ _ _

theorem drained_process (c : Channels S F V I) (s : S) : (c.process s).drained = c.drained := by
  funext s'
  rcases c.process_cases s s' with ⟨ht, hq⟩ | ⟨m, ms, hq, ht, hq'⟩
  · rw [drained, ht, hq, drained]
  · rw [drained, ht, hq', drained, hq, FlowTable.applyAll_cons]

theorem mem_queue_of_process (h : m ∈ (c.process s).queue s') : m ∈ c.queue s' := by
  rcases c.process_cases s s' with ⟨-, hq⟩ | ⟨m', ms, hq, -, hq'⟩
  · rwa [hq] at h
  · rw [hq]
    exact List.mem_cons_of_mem _ (hq' ▸ h)

theorem holds_of_process (h : (c.process s).Holds s' k i) : c.Holds s' k i := by
  rcases h with h | h
  · rcases c.process_cases s s' with ⟨ht, -⟩ | ⟨m, ms, hq, ht, -⟩
    · exact .inl (ht ▸ h)
    · rcases FlowTable.apply_eq_some (ht ▸ h) with rfl | ⟨h, -⟩
      · exact .inr (hq ▸ List.mem_cons_self)
      · exact .inl h
  · exact .inr (mem_queue_of_process h)

theorem tables_process_of_not_touches (h : ∀ m ∈ c.queue s', ¬ m.Touches k) :
    (c.process s).tables s' k = c.tables s' k := by
  rcases c.process_cases s s' with ⟨ht, -⟩ | ⟨m, ms, hq, ht, -⟩
  · rw [ht]
  · rw [ht, FlowTable.apply_of_not_touches (h m (hq ▸ List.mem_cons_self))]

theorem Covers.process {ks : List (Key F V)} (h : c.Covers s ks) (s' : S) :
    (c.process s').Covers s ks := fun k i hk ↦ h k i (holds_of_process hk)

/-- Each switch has processed the first of the modifications sent to it, in order, and the others
wait for it. -/
def Follows (c₀ : Channels S F V I) (ms : List (S × Mod F V I)) (c : Channels S F V I) : Prop :=
  ∀ s, ∃ processed, c₀.queue s ++ sentTo s ms = processed ++ c.queue s ∧
    c.tables s = (c₀.tables s).applyAll processed

theorem Follows.refl (c : Channels S F V I) : c.Follows [] c := fun _ ↦ ⟨[], by simp, rfl⟩

theorem Follows.post {c₀ : Channels S F V I} {ms : List (S × Mod F V I)} (h : c₀.Follows ms c)
    (ns : List (S × Mod F V I)) : c₀.Follows (ms ++ ns) (c.post ns) := by
  intro s
  obtain ⟨processed, hsent, htable⟩ := h s
  refine ⟨processed, ?_, htable⟩
  rw [sentTo_append, ← List.append_assoc, hsent, List.append_assoc, post_queue]

theorem Follows.process {c₀ : Channels S F V I} {ms : List (S × Mod F V I)} (h : c₀.Follows ms c)
    (s : S) : c₀.Follows ms (c.process s) := by
  intro s'
  obtain ⟨processed, hsent, htable⟩ := h s'
  rcases c.process_cases s s' with ⟨ht, hq⟩ | ⟨m, ns, hq, ht, hq'⟩
  · exact ⟨processed, by rw [hsent, hq], by rw [ht, htable]⟩
  · refine ⟨processed ++ [m], ?_, ?_⟩
    · rw [hsent, hq, hq', List.append_assoc, List.singleton_append]
    · rw [ht, htable, FlowTable.applyAll_append]
      rfl

theorem exists_processed (c : Channels S F V I) (s : S) : ∃ n : ℕ,
    ((List.replicate n s).foldl process c).queue s = [] ∧
      ∀ s' ≠ s, ((List.replicate n s).foldl process c).queue s' = c.queue s' := by
  induction hq : c.queue s generalizing c with
  | nil => exact ⟨0, hq, fun _ _ ↦ rfl⟩
  | cons m ms ih =>
    obtain ⟨n, hdone, hother⟩ := ih (c.process s) (process_of_cons hq).2
    refine ⟨n + 1, hdone, fun s' hs' ↦ (hother s' hs').trans ?_⟩
    rw [process, hq]
    exact if_neg hs'

theorem drained_foldl_process (c : Channels S F V I) (ss : List S) :
    (ss.foldl process c).drained = c.drained := by
  induction ss generalizing c with
  | nil => rfl
  | cons s ss ih => rw [List.foldl_cons, ih, drained_process]

theorem exists_idle {ids : List S} (h : ∀ s, c.queue s ≠ [] → s ∈ ids) :
    ∃ ss : List S, (ss.foldl process c).Idle := by
  induction ids generalizing c with
  | nil => exact ⟨[], fun s ↦ by_contra fun hs ↦ List.not_mem_nil (h s hs)⟩
  | cons id ids ih =>
    obtain ⟨n, hdone, hother⟩ := c.exists_processed id
    have hrest : ∀ s, ((List.replicate n id).foldl process c).queue s ≠ [] → s ∈ ids := by
      intro s hs
      have hne : s ≠ id := by
        rintro rfl
        exact hs hdone
      exact (List.mem_cons.mp (h s (hother s hne ▸ hs))).resolve_left hne
    obtain ⟨ss, hidle⟩ := ih hrest
    exact ⟨List.replicate n id ++ ss, by rwa [List.foldl_append]⟩

end Process

end Channels

end NshSfc.Library
