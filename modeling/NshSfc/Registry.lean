import NshSfc.Connections
import NshSfc.Library.Run

namespace NshSfc.Registry

open Library OpenFlow App Connections

abbrev Change := Datapath × Dispatcher

def registry (es : List Change) : SfcApp :=
  es.foldl (fun app e ↦ stateChangeHandler app e.1 e.2) ⟨[], List.nodup_nil⟩

theorem registry_concat (es : List Change) (e : Change) :
    registry (es ++ [e]) = stateChangeHandler (registry es) e.1 e.2 := by
  simp [registry]

/-- The connection has had its MAIN event and not its DEAD event. -/
def Live (es : List Change) (c : Datapath) : Prop := (c, .main) ∈ es ∧ (c, .dead) ∉ es

def Valid : List Change → Prop :=
  Always fun before e ↦ e.2 = .main → (e.1, .dead) ∉ before

/-- No connection dies while another one of its switch is live. -/
def Lone : List Change → Prop :=
  Always fun before e ↦ e.2 = .dead → ∀ c, Live before c → c.id = e.1.id → c = e.1

/-- The registry has the ids of the switches with a live connection, and stores live connections. -/
structure Tracks (app : SfcApp) (es : List Change) : Prop where
  ids : ∀ id, id ∈ app.datapaths.map Datapath.id ↔ ∃ c, Live es c ∧ c.id = id
  live : ∀ dp ∈ app.datapaths, Live es dp

section Step

variable {es : List Change} {c d : Datapath} {app : SfcApp}

theorem live_main (hc : (c, .dead) ∉ es) :
    Live (es ++ [(c, .main)]) d ↔ Live es d ∨ d = c := by
  simp only [Live, List.mem_append, List.mem_singleton, Prod.mk.injEq, and_true, reduceCtorEq,
    and_false, or_false]
  constructor
  · intro ⟨hd, hdead⟩
    exact hd.imp_left fun h ↦ ⟨h, hdead⟩
  · intro h
    rcases h with ⟨hd, hdead⟩ | rfl
    · exact ⟨.inl hd, hdead⟩
    · exact ⟨.inr rfl, hc⟩

theorem live_dead : Live (es ++ [(c, .dead)]) d ↔ Live es d ∧ d ≠ c := by
  simp [Live, and_assoc]

theorem tracks_main (h : Tracks app es) (hc : (c, .dead) ∉ es) :
    Tracks (stateChangeHandler app c .main) (es ++ [(c, .main)]) := by
  constructor
  · intro id
    simp only [List.mem_map, mem_main, live_main hc]
    constructor
    · intro ⟨dp, hdp, hid⟩
      exact ⟨dp, hdp.imp (h.live dp) And.left, hid⟩
    · intro ⟨d, hd, hid⟩
      by_cases hmem : ∃ dp ∈ app.datapaths, dp.id = id
      · obtain ⟨dp, hdp, hid⟩ := hmem
        exact ⟨dp, .inl hdp, hid⟩
      · rcases hd with hd | rfl
        · exact absurd (List.mem_map.mp ((h.ids id).mpr ⟨d, hd, hid⟩)) hmem
        · exact ⟨d, .inr ⟨rfl, hid ▸ hmem⟩, hid⟩
  · intro dp hdp
    exact (live_main hc).mpr ((mem_main.mp hdp).imp (h.live dp) And.left)

theorem tracks_dead_iff (h : Tracks app es) :
    Tracks (stateChangeHandler app c .dead) (es ++ [(c, .dead)]) ↔
      ∀ d, Live es d → d.id = c.id → d = c := by
  constructor
  · intro h' d hd hid
    by_contra hne
    have hmem := (h'.ids c.id).mpr ⟨d, live_dead.mpr ⟨hd, hne⟩, hid⟩
    obtain ⟨dp, hdp, hid'⟩ := List.mem_map.mp hmem
    exact (mem_dead.mp hdp).2 hid'
  · intro hlone
    have hlive : ∀ dp ∈ (stateChangeHandler app c .dead).datapaths,
        Live (es ++ [(c, .dead)]) dp := by
      intro dp hdp
      obtain ⟨hdp, hne⟩ := mem_dead.mp hdp
      exact live_dead.mpr ⟨h.live dp hdp, fun heq ↦ hne (by rw [heq])⟩
    refine ⟨fun id ↦ ⟨fun hmem ↦ ?_, fun ⟨d, hd, hid⟩ ↦ ?_⟩, hlive⟩
    · obtain ⟨dp, hdp, hid⟩ := List.mem_map.mp hmem
      exact ⟨dp, hlive dp hdp, hid⟩
    · obtain ⟨hd, hne⟩ := live_dead.mp hd
      obtain ⟨dp, hdp, hid'⟩ := List.mem_map.mp ((h.ids id).mpr ⟨d, hd, hid⟩)
      refine List.mem_map.mpr ⟨dp, mem_dead.mpr ⟨hdp, fun hc ↦ hne (hlone d hd ?_)⟩, hid'⟩
      rw [hid, ← hid', hc]

end Step

/-- The registry tracks the live connections after every event exactly if no connection dies while
another one of its switch is live. -/
theorem registry_tracks_iff {es : List Change} (hvalid : Valid es) :
    Always (fun before e ↦ Tracks (registry (before ++ [e])) (before ++ [e])) es ↔ Lone es := by
  induction es using List.reverseRecOn with
  | nil => exact ⟨fun _ ↦ always_nil, fun _ ↦ always_nil⟩
  | append_singleton es e ih =>
    obtain ⟨hvalid, hlast⟩ := always_concat.mp hvalid
    have hnow : Always (fun before e ↦ Tracks (registry (before ++ [e])) (before ++ [e])) es →
        Tracks (registry es) es := by
      intro h
      rcases List.eq_nil_or_concat' es with rfl | ⟨es, e, rfl⟩
      · constructor
        · intro id
          simp [registry, Live]
        · intro dp hdp
          cases hdp
      · exact (always_concat.mp h).2
    have hstep : Tracks (registry es) es → (Tracks (registry (es ++ [e])) (es ++ [e]) ↔
        (e.2 = .dead → ∀ c, Live es c → c.id = e.1.id → c = e.1)) := by
      intro h
      obtain ⟨c, st⟩ := e
      rw [registry_concat]
      cases st with
      | main => exact iff_of_true (tracks_main h (hlast rfl)) fun hst ↦ by cases hst
      | dead => exact (tracks_dead_iff h).trans ⟨fun hd _ ↦ hd, fun hd ↦ hd rfl⟩
    rw [Lone, always_concat, always_concat, ih hvalid]
    constructor
    · intro h
      have htracks := hnow ((ih hvalid).mpr h.1)
      exact ⟨h.1, (hstep htracks).mp h.2⟩
    · intro h
      have htracks := hnow ((ih hvalid).mpr h.1)
      exact ⟨h.1, (hstep htracks).mpr h.2⟩

theorem registry_tracks_reconnected :
    Always (fun before e ↦ Tracks (registry (before ++ [e])) (before ++ [e]))
      [(⟨1, 0⟩, .main), (⟨1, 0⟩, .dead), (⟨1, 1⟩, .main)] := by
  have hvalid : Valid [(⟨1, 0⟩, .main), (⟨1, 0⟩, .dead), (⟨1, 1⟩, .main)] := by
    simp [Valid, always_cons, always_nil]
  have hlone : Lone [(⟨1, 0⟩, .main), (⟨1, 0⟩, .dead), (⟨1, 1⟩, .main)] := by
    simp [Lone, always_cons, always_nil, Live]
  exact (registry_tracks_iff hvalid).mpr hlone

/-- The first connection of switch 1 is declared dead when the second one is in use already. -/
theorem registry_loses_connection :
    Valid [(⟨1, 0⟩, .main), (⟨1, 1⟩, .main), (⟨1, 0⟩, .dead)] ∧
    Live [(⟨1, 0⟩, .main), (⟨1, 1⟩, .main), (⟨1, 0⟩, .dead)] ⟨1, 1⟩ ∧
    (registry [(⟨1, 0⟩, .main), (⟨1, 1⟩, .main), (⟨1, 0⟩, .dead)]).datapaths = [] ∧
    ¬ Tracks (registry [(⟨1, 0⟩, .main), (⟨1, 1⟩, .main), (⟨1, 0⟩, .dead)])
      [(⟨1, 0⟩, .main), (⟨1, 1⟩, .main), (⟨1, 0⟩, .dead)] := by
  have hlive : Live [(⟨1, 0⟩, .main), (⟨1, 1⟩, .main), (⟨1, 0⟩, .dead)] ⟨1, 1⟩ := by simp [Live]
  have hempty : (registry [(⟨1, 0⟩, .main), (⟨1, 1⟩, .main), (⟨1, 0⟩, .dead)]).datapaths = [] := by
    decide
  refine ⟨?_, hlive, hempty, fun h ↦ ?_⟩
  · simp [Valid, always_cons, always_nil]
  · have hmem := (h.ids 1).mpr ⟨_, hlive, rfl⟩
    rw [hempty] at hmem
    cases hmem

end NshSfc.Registry
