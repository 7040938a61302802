import Mathlib.Data.Fintype.Pi
import Mathlib.Order.BoundedOrder.Basic

namespace NshSfc.Library

/-- A partial assignment of values to header fields. A flow entry requires one
and a packet carries one; the order is extension. -/
def Match (F V : Type) := F → Option V

namespace Match

variable {F V : Type}

instance : PartialOrder (Match F V) where
  le m n := ∀ f v, m f = some v → n f = some v
  le_refl _ _ _ h := h
  le_trans _ _ _ h h' f v hv := h' f v (h f v hv)
  le_antisymm m n h h' := by
    funext f
    cases hm : m f with
    | some v => exact (h f v hm).symm
    | none =>
      cases hn : n f with
      | none => rfl
      | some v => exact hm.symm.trans (h' f v hn)

instance : OrderBot (Match F V) where
  bot _ := none
  bot_le _ _ _ h := by cases h

theorem apply_eq_none_of_le {m n : Match F V} (h : m ≤ n) {f : F} (hf : n f = none) : m f = none := by
  cases hm : m f with
  | none => rfl
  | some v => exact absurd (h f v hm) (by simp [hf])

def Clash (m n : Match F V) : Prop := ∃ f v w, m f = some v ∧ n f = some w ∧ v ≠ w

theorem Clash.symm {m n : Match F V} (h : Clash m n) : Clash n m := by
  obtain ⟨f, v, w, hv, hw, hne⟩ := h
  exact ⟨f, w, v, hw, hv, hne.symm⟩

theorem Clash.mono {m m' n n' : Match F V} (h : Clash m n) (hm : m ≤ m') (hn : n ≤ n') :
    Clash m' n' := by
  obtain ⟨f, v, w, hv, hw, hne⟩ := h
  exact ⟨f, v, w, hm f v hv, hn f w hw, hne⟩

theorem Clash.irrefl (m : Match F V) : ¬ Clash m m := by
  rintro ⟨f, v, w, hv, hw, hne⟩
  exact hne (Option.some.inj (hv.symm.trans hw))

theorem Clash.not_le {m n h : Match F V} (hc : Clash m n) (hn : n ≤ h) : ¬ m ≤ h :=
  fun hm ↦ Clash.irrefl h (hc.mono hm hn)

theorem Clash.ne {m n : Match F V} (h : Clash m n) : m ≠ n := by
  rintro rfl
  exact Clash.irrefl m h

section Update

variable [DecidableEq F]

def set (m : Match F V) (f : F) (v : Option V) : Match F V := fun g ↦ if g = f then v else m g

@[simp] theorem set_self (m : Match F V) (f : F) (v : Option V) : m.set f v f = v := if_pos rfl

theorem set_of_ne {f g : F} (h : g ≠ f) (m : Match F V) (v : Option V) : m.set f v g = m g := if_neg h

theorem set_le_set {m n : Match F V} (h : m ≤ n) (f : F) {v w : Option V}
    (hvw : ∀ x, v = some x → w = some x) : m.set f v ≤ n.set f w := by
  intro g x hx
  by_cases hg : g = f
  · subst hg
    rw [set_self] at hx ⊢
    exact hvw x hx
  · rw [set_of_ne hg] at hx ⊢
    exact h g x hx

theorem le_set {m n : Match F V} {f : F} (hf : m f = none) (h : m ≤ n) (v : Option V) :
    m ≤ n.set f v := by
  intro g w hw
  by_cases hg : g = f
  · subst g; simp [hf] at hw
  · rw [set_of_ne hg]; exact h g w hw

theorem le_of_set_le {m n : Match F V} {f : F} (hf : m f = none) {v : Option V}
    (h : m.set f v ≤ n) : m ≤ n := by
  intro g w hw
  have hg : g ≠ f := by rintro rfl; simp [hf] at hw
  exact h g w (by rwa [set_of_ne hg])

theorem le_of_le_set {m n : Match F V} {f : F} (hf : m f = none) {v : Option V}
    (h : m ≤ n.set f v) : m ≤ n := by
  intro g w hw
  have hg : g ≠ f := by rintro rfl; simp [hf] at hw
  have := h g w hw
  rwa [set_of_ne hg] at this

theorem set_injective {m n : Match F V} {f : F} {v w : Option V} (hm : m f = none)
    (hn : n f = none) (h : m.set f v = n.set f w) : m = n := by
  funext g
  by_cases hg : g = f
  · rw [hg, hm, hn]
  · rw [← set_of_ne hg m v, h, set_of_ne hg]

end Update

section Decidable

variable [Fintype F] [DecidableEq V]

instance : DecidableEq (Match F V) := inferInstanceAs (DecidableEq (F → Option V))

instance (m n : Match F V) : DecidablePred fun f ↦ m f = none ∨ m f = n f :=
  fun f ↦ inferInstanceAs (Decidable (m f = none ∨ m f = n f))

instance : DecidableLE (Match F V) := fun m n ↦
  decidable_of_iff (∀ f, m f = none ∨ m f = n f) <| by
    constructor
    · intro h f v hv
      rcases h f with hf | hf
      · simp [hf] at hv
      · rw [← hf, hv]
    · intro h f
      cases hm : m f with
      | none => exact .inl rfl
      | some v => exact .inr (h f v hm).symm

end Decidable

end Match

end NshSfc.Library
