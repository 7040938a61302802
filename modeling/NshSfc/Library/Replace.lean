import NshSfc.Library.Channels

namespace NshSfc.Library

section Replace

-- `G` is what the tables of a switch are to guarantee, and `R` are modifications that restore it
variable {S F V I : Type} [DecidableEq S] [Fintype F] [DecidableEq V] (G : FlowTable F V I → Prop)
  (R : Mod F V I → Prop)

def Mod.Spares (n : Mod F V I) : Prop := ∀ T : FlowTable F V I, G T → G (T.apply n)

/-- A queue in which every modification that may break the guarantee is followed at once by one
that restores it. -/
inductive Orderly : List (Mod F V I) → Prop
  | nil : Orderly []
  | keep {n : Mod F V I} {ms : List (Mod F V I)} (hn : n.Spares G) (h : Orderly ms) : Orderly (n :: ms)
  | swap (n : Mod F V I) {r : Mod F V I} {ms : List (Mod F V I)} (hr : R r) (h : Orderly ms) :
      Orderly (n :: r :: ms)

def Secure (c : Channels S F V I) (s : S) : Prop :=
  (G (c.tables s) ∧ Orderly G R (c.queue s)) ∨
    ∃ r ms, c.queue s = r :: ms ∧ R r ∧ Orderly G R ms

variable {G R} {c : Channels S F V I} {s : S}

theorem Orderly.append {ms ms' : List (Mod F V I)} (h : Orderly G R ms) (h' : Orderly G R ms') :
    Orderly G R (ms ++ ms') := by
  induction h with
  | nil => exact h'
  | keep hn _ ih => exact .keep hn ih
  | swap n hr _ ih => exact .swap n hr ih

theorem orderly_of_spares {ms : List (Mod F V I)} (h : ∀ n ∈ ms, n.Spares G) : Orderly G R ms := by
  induction ms with
  | nil => exact .nil
  | cons n ms ih =>
    obtain ⟨hn, hms⟩ := List.forall_mem_cons.mp h
    exact .keep hn (ih hms)

theorem Secure.process (hR : ∀ r, R r → ∀ T : FlowTable F V I, G (T.apply r)) (h : Secure G R c s)
    (s' : S) : Secure G R (c.process s') s := by
  rcases c.process_cases s' s with ⟨ht, hq⟩ | ⟨n, ms, hq, ht, hq'⟩
  · rwa [Secure, ht, hq]
  rw [Secure, ht, hq']
  rcases h with ⟨hG, hord⟩ | ⟨r, rest, hr, hres, hord⟩
  · rw [hq] at hord
    cases hord with
    | keep hn h => exact .inl ⟨hn _ hG, h⟩
    | swap _ hr h => exact .inr ⟨_, _, rfl, hr, h⟩
  · obtain ⟨rfl, rfl⟩ := List.cons.inj (hq.symm.trans hr)
    exact .inl ⟨hR n hres _, hord⟩

theorem Secure.post (h : Secure G R c s) {ms : List (S × Mod F V I)}
    (hms : Orderly G R (sentTo s ms)) : Secure G R (c.post ms) s := by
  rcases h with ⟨hG, hord⟩ | ⟨r, rest, hq, hr, hord⟩
  · exact .inl ⟨hG, hord.append hms⟩
  · refine .inr ⟨r, rest ++ sentTo s ms, ?_, hr, hord.append hms⟩
    rw [Channels.post_queue, hq, List.cons_append]

end Replace

end NshSfc.Library
