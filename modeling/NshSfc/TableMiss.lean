import NshSfc.Connections
import NshSfc.Demo
import NshSfc.Keys
import NshSfc.Pipeline

namespace NshSfc.TableMiss

open Library Library.Script Python Database OpenFlow RowMatch App Packets Controller Sent Handler
  Keys Switch Pipeline Operations Connections

def Ascends (t : ℕ) (i : List Instruction) : Prop := ∀ t', .gotoTable t' ∈ i → t < t' ∧ t' ≤ 3

/-- What every entry of the application keeps to. -/
structure Wired (T : SwitchTable) : Prop where
  table : ∀ k i, T k = some i → k.table ≤ 3
  priority : ∀ k i, T k = some i → k.priority ≤ 10
  ascends : ∀ k i, T k = some i → Ascends k.table i

def Guarded (T : SwitchTable) : Prop :=
  ∀ t i, DefaultEntry (missKey t) i → T (missKey t) = some i

inductive Harmless : SwitchMod → Prop
  | add {k : FlowKey} {i : List Instruction} (htable : k.table ≤ 3) (hpriority : k.priority ≤ 10)
      (hgoto : Ascends k.table i) (hmiss : ∀ t, k = missKey t → DefaultEntry k i) :
      Harmless (.add k i)
  | delete {t : ℕ} {m : FieldMatch} (hm : ¬ m ≤ ⊥) : Harmless (.delete t m)

theorem missKey_unique {k : FlowKey} {i j : List Instruction} (h : DefaultEntry k i)
    (h' : DefaultEntry k j) : i = j :=
  Option.some.inj ((defaultTable_iff.mpr h).symm.trans (defaultTable_iff.mpr h'))

section Apply

variable {T : SwitchTable} {n : SwitchMod}

theorem Wired.apply (h : Wired T) (hn : Harmless n) : Wired (T.apply n) := by
  have hcases : ∀ k i, T.apply n k = some i →
      T k = some i ∨ (k.table ≤ 3 ∧ k.priority ≤ 10 ∧ Ascends k.table i) := by
    intro k i hk
    rcases FlowTable.apply_eq_some hk with rfl | ⟨hk, -⟩
    · cases hn with
      | add htable hpriority hgoto hmiss => exact .inr ⟨htable, hpriority, hgoto⟩
    · exact .inl hk
  constructor
  · intro k i hk
    exact (hcases k i hk).elim (h.table k i) fun h' ↦ h'.1
  · intro k i hk
    exact (hcases k i hk).elim (h.priority k i) fun h' ↦ h'.2.1
  · intro k i hk
    exact (hcases k i hk).elim (h.ascends k i) fun h' ↦ h'.2.2

theorem Harmless.keeps (hn : Harmless n) {t : ℕ} {i : List Instruction}
    (hi : DefaultEntry (missKey t) i) (h : T (missKey t) = some i) :
    T.apply n (missKey t) = some i := by
  by_cases ht : n.Touches (missKey t)
  · cases hn with
    | @add k j htable hpriority hgoto hmiss =>
      obtain rfl : k = missKey t := ht
      rw [missKey_unique hi (hmiss t rfl)]
      exact if_pos rfl
    | delete hm => exact absurd ht.2 hm
  · rw [FlowTable.apply_of_not_touches ht, h]

end Apply

section Run

variable {ns : List SwitchMod}

theorem Wired.applyAll (hns : ∀ n ∈ ns, Harmless n) {T : SwitchTable} (h : Wired T) :
    Wired (T.applyAll ns) := by
  induction ns generalizing T with
  | nil => exact h
  | cons n ns ih =>
    obtain ⟨hn, hns⟩ := List.forall_mem_cons.mp hns
    exact ih hns (h.apply hn)

theorem keeps_applyAll (hns : ∀ n ∈ ns, Harmless n) {T : SwitchTable} {t : ℕ} {i : List Instruction}
    (hi : DefaultEntry (missKey t) i) (h : T (missKey t) = some i) :
    T.applyAll ns (missKey t) = some i := by
  induction ns generalizing T with
  | nil => exact h
  | cons n ns ih =>
    obtain ⟨hn, hns⟩ := List.forall_mem_cons.mp hns
    exact ih hns (hn.keeps hi h)

end Run

section Sent

variable {app : SfcApp} {db : Db} {n : Message}

theorem harmless_goto {t p t' : ℕ} {m : FieldMatch} {actions : List Action} {metadata : Option Int}
    (h : t < t' + 1 ∧ t' + 1 ≤ 3 ∧ p ≤ 10)
    (hmiss : ∀ u, ⟨t, p, m⟩ = missKey u →
      DefaultEntry ⟨t, p, m⟩ (flowInstructions actions metadata (some (t' + 1)))) :
    Harmless (.add ⟨t, p, m⟩ (flowInstructions actions metadata (some (t' + 1)))) := by
  refine .add ?_ h.2.2 ?_ hmiss
  · show t ≤ 3
    omega
  · intro u hu
    have hu : u = t' + 1 := by
      cases metadata with
      | none => simpa [flowInstructions] using hu
      | some v => by_cases hv : v = 0 <;> simpa [flowInstructions, hv] using hu
    show t < u ∧ u ≤ 3
    omega

theorem harmless_last {t p : ℕ} {m : FieldMatch} {actions : List Action} {metadata : Option Int}
    (h : t ≤ 3 ∧ p ≤ 10)
    (hmiss : ∀ u, ⟨t, p, m⟩ = missKey u →
      DefaultEntry ⟨t, p, m⟩ (flowInstructions actions metadata none)) :
    Harmless (.add ⟨t, p, m⟩ (flowInstructions actions metadata none)) := by
  refine .add h.1 h.2 ?_ hmiss
  intro u hu
  simp [flowInstructions] at hu

theorem ne_missKey {k : FlowKey} (h : ¬ IsDefault k) (i : List Instruction) :
    ∀ t, k = missKey t → DefaultEntry k i := by
  intro t hk
  exact absurd (.inr (.inr ⟨t, hk⟩)) h

theorem not_le_bot {m : FieldMatch} {f : Field} {v : Value} (h : m f = some v) : ¬ m ≤ ⊥ := by
  intro hle
  cases hle f v h

theorem features_harmless {dp : Datapath} (hn : n ∈ (switchFeaturesHandler dp).sent) :
    Harmless n.2.toMod := by
  simp only [switchFeatures_sent, List.mem_cons, List.not_mem_nil, or_false] at hn
  rcases hn with rfl | rfl | rfl | rfl | rfl | rfl
  · exact harmless_goto (by decide) fun _ _ ↦ .registration
  · exact harmless_goto (by decide) fun _ _ ↦ .nsh
  · exact harmless_goto (by decide) fun _ _ ↦ .miss0
  · exact harmless_goto (by decide) fun _ _ ↦ .miss1
  · exact harmless_last (by decide) fun _ _ ↦ .miss2
  · exact harmless_last (by decide) fun _ _ ↦ .miss3

theorem add_harmless {flowId : Int} (hn : n ∈ (apiAddFlow app db flowId).sent) :
    Harmless n.2.toMod := by
  obtain ⟨row, -, hrule⟩ := apiAddFlow_sent hn
  cases hrule with
  | detection hdp hm =>
    exact harmless_goto (by decide) (ne_missKey (detection_keyOf hm 0).not_isDefault _)

/-- No delete of the application is for all entries of a table: a match that can be built has an
Ethernet type, since both IPv4 addresses must be there. -/
theorem delete_harmless {flowId : Int} (hn : n ∈ (apiDeleteFlow app db flowId).sent) :
    Harmless n.2.toMod := by
  obtain ⟨row, -, hrule⟩ := apiDeleteFlow_sent hn
  cases hrule with
  | common hdp hm =>
    obtain ⟨t, ht⟩ := matchCommon_ethType hm
    exact .delete (not_le_bot ht)
  | spi hdp hspi => exact .delete (not_le_bot (matchSpi_nshSpi _))

theorem install_harmless {msg : PacketIn} {row : FlowRow} {m : OFPMatch}
    (hm : matchCommon row = .ok m) (h : InstallRule app msg row n) : Harmless n.2.toMod := by
  have hmiss : ∀ k i, n.2.toMod = .add k i → ∀ t, k = missKey t → DefaultEntry k i := by
    intro k i hadd
    obtain ⟨spi, k', i', -, hadd', hkey⟩ := InstallRule.keyOf hm h
    rw [hadd] at hadd'
    obtain ⟨rfl, rfl⟩ := Mod.add.inj hadd'
    exact ne_missKey hkey.not_isDefault i
  cases h with
  | source he hspi si loc => exact harmless_goto (by decide) (hmiss _ _ rfl)
  | chain h =>
    cases h with
    | aware hdp hspi si loc => exact harmless_goto (by decide) (hmiss _ _ rfl)
    | middle hdp hspi p he si loc => exact harmless_goto (by decide) (hmiss _ _ rfl)
    | delivery hdp hspi loc si p => exact harmless_last (by decide) (hmiss _ _ rfl)
    | last hdp hspi => exact harmless_goto (by decide) (hmiss _ _ rfl)

theorem packetIn_harmless {msg : PacketIn} {fuel : ℕ}
    (hn : n ∈ (packetInHandler fuel app db msg).sent) : Harmless n.2.toMod := by
  obtain ⟨flowId, row, m, -, hm, hcase⟩ := handler_sends hn
  rcases hcase with ⟨dp, -, rfl⟩ | hrule
  · obtain ⟨r, -, rfl⟩ := hm.head
    obtain ⟨t, ht⟩ := matchCommon_ethType hm.common
    exact .delete (not_le_bot ht)
  · exact install_harmless hm.common hrule

theorem sent_harmless {e : Event} (hn : n ∈ e.sent app db) : Harmless n.2.toMod := by
  cases e with
  | features dp => exact features_harmless hn
  | stateChange dp st => simp [Event.sent] at hn
  | op op =>
    cases op with
    | addFlow flowId => exact add_harmless hn
    | packetIn msg fuel => exact packetIn_harmless hn
    | deleteFlow flowId => exact delete_harmless hn

end Sent

section Reachable

variable {db : Db} {es : List Event} {s : Int}

def Configured (es : List Event) (s : Int) : Prop := ∃ dp : Datapath, .features dp ∈ es ∧ dp.id = s

theorem sentTo_harmless (app : SfcApp) (db : Db) (e : Event) (s : Int) :
    ∀ n ∈ sentTo s (mods (e.sent app db)), Harmless n := by
  intro n hn
  obtain ⟨m, hm, -, rfl⟩ := mem_mods.mp (mem_sentTo.mp hn)
  exact sent_harmless hm

theorem reachable_wired (db : Db) (es : List Event) (s : Int) :
    Wired ((run (start db) es).tables s) := by
  induction es using List.reverseRecOn with
  | nil =>
    constructor
    all_goals
      intro k i hk
      cases hk
  | append_singleton es e ih =>
    rw [run_concat, step_tables]
    exact ih.applyAll (sentTo_harmless _ _ e s)

theorem features_guarded (T : Network) (dp : Datapath) :
    Guarded (T.receive (switchFeaturesHandler dp).sent dp.id) := by
  intro t i hi
  have hsent : sentTo dp.id (mods (switchFeaturesHandler dp).sent) =
      (switchFeaturesHandler ⟨0, 0⟩).sent.map fun m ↦ m.2.toMod := by
    rw [← switchFeatures_mods dp]
    simp only [switchFeatures_sent, mods, List.map_cons, List.map_nil, sentTo_cons_self, sentTo_nil]
  have hdefault := defaultTable_iff.mpr hi
  rw [← hdefault]
  show (T dp.id).applyAll (sentTo dp.id (mods (switchFeaturesHandler dp).sent)) (missKey t) = _
  rw [hsent]
  rcases FlowTable.applyAll_eq_some hdefault with hadd | ⟨hempty, -⟩
  · exact FlowTable.applyAll_of_touches ⟨_, hadd, rfl⟩ _ _
  · cases hempty

theorem reachable_guarded (h : Configured es s) : Guarded ((run (start db) es).tables s) := by
  obtain ⟨dp, hdp, rfl⟩ := h
  induction es using List.reverseRecOn with
  | nil => cases hdp
  | append_singleton es e ih =>
    rw [run_concat, step_tables]
    rcases List.mem_append.mp hdp with hdp | hdp
    · intro t i hi
      exact keeps_applyAll (sentTo_harmless _ _ e dp.id) hi (ih hdp t i hi)
    · obtain rfl : e = .features dp := (List.mem_singleton.mp hdp).symm
      exact features_guarded _ dp

end Reachable

section Pipeline

variable {T : SwitchTable} {inPort : Int}

/-- Whichever entries the switch chooses, the pipeline is over after at most `n` lookups, all of
which find an entry. -/
def EndsWithin (T : SwitchTable) (inPort : Int) : ℕ → ℕ → BitVec 64 → Frame → Prop
  | 0, _, _, _ => False
  | n + 1, t, md, f =>
    (∃ k i, T.Hits t (f.header inPort) k i) ∧
      ∀ k i, T.Hits t (f.header inPort) k i →
        ∀ t' md' f', (runInstructions inPort t md f i).2 = some (t', md', f') →
          EndsWithin T inPort n t' md' f'

theorem goto_mem {t t' : ℕ} {md md' : BitVec 64} {f f' : Frame} {i : List Instruction}
    (h : (runInstructions inPort t md f i).2 = some (t', md', f')) : .gotoTable t' ∈ i := by
  induction i generalizing md f with
  | nil => cases h
  | cons instruction i ih =>
    cases instruction with
    | applyActions actions =>
      rw [runInstructions] at h
      split at h
      · exact List.mem_cons_of_mem _ (ih h)
      · cases h
    | writeMetadata metadata mask => exact List.mem_cons_of_mem _ (ih h)
    | gotoTable u =>
      cases h
      exact List.mem_cons_self

theorem miss_entry {t : ℕ} (ht : t ≤ 3) : ∃ i, DefaultEntry (missKey t) i := by
  obtain rfl | rfl | rfl | rfl : t = 0 ∨ t = 1 ∨ t = 2 ∨ t = 3 := by omega
  · exact ⟨_, .miss0⟩
  · exact ⟨_, .miss1⟩
  · exact ⟨_, .miss2⟩
  · exact ⟨_, .miss3⟩

theorem exists_hits_of_guarded (hT : Wired T) (hguard : Guarded T) {t : ℕ} (ht : t ≤ 3)
    (h : FieldMatch) : ∃ k i, T.Hits t h k i := by
  obtain ⟨i, hi⟩ := miss_entry ht
  refine FlowTable.exists_hits (fun k j ha ↦ hT.priority k j ha.entry) (k := missKey t) (i := i) ?_
  exact ⟨hguard t i hi, rfl, bot_le⟩

theorem endsWithin (hT : Wired T) (hguard : Guarded T) {t n : ℕ} (ht : t ≤ 3) (hn : 4 ≤ t + n)
    (md : BitVec 64) (f : Frame) : EndsWithin T inPort n t md f := by
  induction n generalizing t md f with
  | zero => omega
  | succ n ih =>
    refine ⟨exists_hits_of_guarded hT hguard ht _, fun k i hit t' md' f' hrun ↦ ?_⟩
    obtain ⟨hlt, h3⟩ := hT.ascends k i hit.entry t' (goto_mem hrun)
    have htable := hit.table
    exact ih h3 (by omega) md' f'

theorem EndsWithin.passes {t n : ℕ} {md : BitVec 64} {f : Frame} (h : EndsWithin T inPort n t md f) :
    ∃ outs, Passes T inPort t md f outs := by
  induction n generalizing t md f with
  | zero => exact h.elim
  | succ n ih =>
    obtain ⟨⟨k, i, hit⟩, hnext⟩ := h
    rcases hrun : runInstructions inPort t md f i with ⟨outs, _ | ⟨t', md', f'⟩⟩
    · exact ⟨outs, .stop hit hrun⟩
    · obtain ⟨outs', hrest⟩ := ih (hnext k i hit t' md' f' (by rw [hrun]))
      exact ⟨outs ++ outs', .goto hit hrun hrest⟩

end Pipeline

/-- In every reachable state the table-miss entries of the switches that have connected are there,
gotos lead upwards, and every pipeline is over after at most four lookups without a miss. -/
theorem table_miss_survives (db : Db) (es : List Event) :
    (∀ s k i t, (run (start db) es).tables s k = some i → .gotoTable t ∈ i → k.table < t) ∧
    ∀ s, Configured es s →
      (∀ t, t ≤ 3 → ∃ i, DefaultEntry (missKey t) i ∧
        (run (start db) es).tables s (missKey t) = some i) ∧
      ∀ inPort f, EndsWithin ((run (start db) es).tables s) inPort 4 0 0 f := by
  constructor
  · intro s k i t hk ht
    exact ((reachable_wired db es s).ascends k i hk t ht).1
  · intro s hs
    have hguard : Guarded ((run (start db) es).tables s) := reachable_guarded hs
    refine ⟨fun t ht ↦ ?_, fun inPort f ↦ ?_⟩
    · obtain ⟨i, hi⟩ := miss_entry ht
      exact ⟨i, hi, hguard t i hi⟩
    · exact endsWithin (reachable_wired db es s) hguard (Nat.zero_le 3) (Nat.le_refl 4) 0 f

def demoEvents : List Event :=
  [.features ⟨4, 0⟩, .stateChange ⟨4, 0⟩ .main, .op (.addFlow 1), .op (.packetIn Demo.packetIn 2),
   .op (.deleteFlow 1)]

theorem table_miss_survives_demo :
    EndsWithin ((run (start Demo.db) demoEvents).tables 4) 1 4 0 0 (.plain Demo.packet) := by
  have hs : Configured demoEvents 4 := ⟨⟨4, 0⟩, by simp [demoEvents], rfl⟩
  exact ((table_miss_survives Demo.db demoEvents).2 4 hs).2 1 (.plain Demo.packet)

end NshSfc.TableMiss
