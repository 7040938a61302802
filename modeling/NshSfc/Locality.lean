import NshSfc.Journey

namespace NshSfc.Locality

open Library OpenFlow Packets Pipeline Journey

variable {F : Frame → Prop} {T T' : SwitchTable} {P : Int → Prop} {t : ℕ} {q : Int} {md : BitVec 64}
  {f : Frame} {k : FlowKey} {i : List Instruction} {outs : List Out}

/-- The tables have the same entries for the frames of a class. -/
def Agree (F : Frame → Prop) (T T' : SwitchTable) : Prop :=
  ∀ f, F f → ∀ q k, k.fields ≤ f.header q → T k = T' k

theorem Agree.symm (h : Agree F T T') : Agree F T' T := fun f hf q k hk ↦ (h f hf q k hk).symm

theorem Agree.applies (h : Agree F T T') (hf : F f) (ha : T.Applies t (f.header q) k i) :
    T'.Applies t (f.header q) k i where
  entry := by rw [← h f hf q k ha.fields, ha.entry]
  table := ha.table
  fields := ha.fields

theorem Agree.hits (h : Agree F T T') (hf : F f) (hit : T.Hits t (f.header q) k i) :
    T'.Hits t (f.header q) k i where
  toApplies := h.applies hf hit.toApplies
  top k' i' ha := hit.top k' i' (h.symm.applies hf ha)

inductive OutWithin (F : Frame → Prop) (P : Int → Prop) : Out → Prop
  | port {n : Int} {f : Frame} (hn : P n) (hf : F f) : OutWithin F P (.port n f)
  | normal {f : Frame} (hf : F f) : OutWithin F P (.normal f)
  | controller (t : ℕ) (md : BitVec 64) (f : Frame) : OutWithin F P (.controller t md f)

structure Within (F : Frame → Prop) (P : Int → Prop)
    (r : List Out × Option (ℕ × BitVec 64 × Frame)) : Prop where
  outs : ∀ o ∈ r.1, OutWithin F P o
  next : ∀ n ∈ r.2, F n.2.2

def Preserves (F : Frame → Prop) (P : Int → Prop) (T : SwitchTable) : Prop :=
  ∀ f, F f → ∀ t q md k i, T.Applies t (f.header q) k i → Within F P (runInstructions q t md f i)

theorem Preserves.congr (hT : Preserves F P T) (h : Agree F T T') : Preserves F P T' := by
  intro f hf t q md k i ha
  exact hT f hf t q md k i (h.symm.applies hf ha)

theorem Preserves.sends (hT : Preserves F P T) (hf : F f) (ha : T.Applies t (f.header q) k i)
    {next : Option (ℕ × BitVec 64 × Frame)} (hi : runInstructions q t md f i = (outs, next)) :
    ∀ o ∈ outs, OutWithin F P o := by
  have hwithin := hT f hf t q md k i ha
  rw [hi] at hwithin
  exact hwithin.outs

theorem Preserves.goes (hT : Preserves F P T) (hf : F f) (ha : T.Applies t (f.header q) k i)
    {t' : ℕ} {md' : BitVec 64} {f' : Frame}
    (hi : runInstructions q t md f i = (outs, some (t', md', f'))) : F f' := by
  have hwithin := hT f hf t q md k i ha
  rw [hi] at hwithin
  exact hwithin.next _ rfl

theorem Preserves.leaves (hT : Preserves F P T) (hf : F f) (hp : Passes T q t md f outs) :
    ∀ o ∈ outs, OutWithin F P o := by
  induction hp with
  | miss => exact fun o ho ↦ absurd ho List.not_mem_nil
  | stop hit hi => exact hT.sends hf hit.toApplies hi
  | goto hit hi _ ih =>
    intro o ho
    rcases List.mem_append.mp ho with ho | ho
    · exact hT.sends hf hit.toApplies hi o ho
    · exact ih (hT.goes hf hit.toApplies hi) o ho

theorem passes_congr (hT : Preserves F P T) (h : Agree F T T') (hf : F f)
    (hp : Passes T q t md f outs) : Passes T' q t md f outs := by
  induction hp with
  | miss hmiss => exact .miss fun k i ha ↦ hmiss k i (h.symm.applies hf ha)
  | stop hit hi => exact .stop (h.hits hf hit) hi
  | goto hit hi _ ih => exact .goto (h.hits hf hit) hi (ih (hT.goes hf hit.toApplies hi))

section Journey

variable {N N' : Network} {net : Surroundings} {A : Int → Int → Prop} {s : Int}
  {events : List Event}

theorem carried_mem {s' q' : Int} {f' : Frame} (h : fate net s outs = .carried s' q' f') :
    .normal f' ∈ outs := by
  unfold fate at h
  split at h
  · cases h
  · split at h
    · cases h
      exact List.mem_singleton_self _
    · cases h
  · cases h
  · cases h

theorem handed_mem {n : Int} {pkt : Packet} (h : fate net s outs = .handed n pkt) :
    .port n (.plain pkt) ∈ outs := by
  unfold fate at h
  split at h
  · cases h
  · split at h <;> cases h
  · cases h
    exact List.mem_singleton_self _
  · cases h

/-- The way of a frame through the network depends only on the entries for the frames of a class
that neither the switches nor the hosts at the ports `A` leave. -/
theorem travels_congr (hT : ∀ s, Preserves F (A s) (N s)) (h : ∀ s, Agree F (N s) (N' s))
    (hhost : ∀ s n pkt, A s n → F (.plain pkt) → F (.plain (net.host s n pkt))) (hf : F f)
    (htravels : Travels N net s q f events) : Travels N' net s q f events := by
  induction htravels with
  | left hp hfate => exact .left (passes_congr (hT _) (h _) hf hp) hfate
  | lost hp hfate => exact .lost (passes_congr (hT _) (h _) hf hp) hfate
  | carried hp hfate hrest ih =>
    have hout := (hT _).leaves hf hp _ (carried_mem hfate)
    cases hout with
    | normal hf' => exact .carried (passes_congr (hT _) (h _) hf hp) hfate (ih hf')
  | handed hp hfate hrest ih =>
    have hout := (hT _).leaves hf hp _ (handed_mem hfate)
    cases hout with
    | port hn hf' => exact .handed (passes_congr (hT _) (h _) hf hp) hfate (ih (hhost _ _ _ hn hf'))

theorem travels_iff (hT : ∀ s, Preserves F (A s) (N s)) (h : ∀ s, Agree F (N s) (N' s))
    (hhost : ∀ s n pkt, A s n → F (.plain pkt) → F (.plain (net.host s n pkt))) (hf : F f) :
    Travels N net s q f events ↔ Travels N' net s q f events :=
  ⟨travels_congr hT h hhost hf,
    travels_congr (fun s ↦ (hT s).congr (h s)) (fun s ↦ (h s).symm) hhost hf⟩

end Journey

end NshSfc.Locality
