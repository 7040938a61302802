import Mathlib.Data.List.Basic

namespace NshSfc.Library

section Sequencing

variable {ε α β : Type}

theorem ok_bind (a : α) (f : α → Except ε β) : (Except.ok a >>= f) = f a := rfl

theorem bind_eq_ok {x : Except ε α} {f : α → Except ε β} {b : β} (h : (x >>= f) = .ok b) :
    ∃ a, x = .ok a ∧ f a = .ok b := by
  cases x with
  | error e => cases h
  | ok a => exact ⟨a, rfl, h⟩

theorem mapM_eq_ok {f : α → Except ε β} {g : α → β} {l : List α} (h : ∀ a ∈ l, f a = .ok (g a)) :
    l.mapM f = .ok (l.map g) := by
  induction l with
  | nil => rfl
  | cons a l ih =>
    obtain ⟨ha, hl⟩ := List.forall_mem_cons.mp h
    rw [List.mapM_cons, ha, ih hl]
    rfl

theorem ok_of_mapM {f : α → Except ε β} {l : List α} {bs : List β} (h : l.mapM f = .ok bs) :
    ∀ a ∈ l, ∃ b, f a = .ok b := by
  induction l generalizing bs with
  | nil => simp
  | cons a l ih =>
    rw [List.mapM_cons] at h
    obtain ⟨b, hb, hrest⟩ := bind_eq_ok h
    obtain ⟨bs, hbs, -⟩ := bind_eq_ok hrest
    exact List.forall_mem_cons.mpr ⟨⟨b, hb⟩, ih hbs⟩

theorem foldlM_append (f : α → Except ε (List β)) (l : List α) (data : List β) :
    l.foldlM (fun data a ↦ do return data ++ (← f a)) data =
      (l.mapM f).map fun pieces ↦ data ++ pieces.flatten := by
  induction l generalizing data with
  | nil => exact congrArg Except.ok (List.append_nil data).symm
  | cons a l ih =>
    rw [List.foldlM_cons, List.mapM_cons]
    cases hpiece : f a with
    | error e => rfl
    | ok piece =>
      rw [ok_bind]
      change l.foldlM _ (data ++ piece) = _
      rw [ih]
      cases l.mapM f with
      | error e => rfl
      | ok pieces => exact congrArg Except.ok (List.append_assoc _ _ _)

end Sequencing

section Search

variable {α β : Type}

theorem lookup_map_self (l : List String) (f : String → β) (a : String) :
    (l.map fun b ↦ (b, f b)).lookup a = if a ∈ l then some (f a) else none := by
  induction l with
  | nil => rfl
  | cons b l ih =>
    by_cases hab : a = b
    · simp [hab]
    · have hbeq : (a == b) = false := by simpa using hab
      simp [List.lookup_cons, hbeq, ih, hab]

theorem find?_unique {p : α → Bool} {l : List α} {a : α} (ha : a ∈ l) (hp : p a)
    (honly : ∀ b ∈ l, p b → b = a) : l.find? p = some a := by
  cases hfind : l.find? p with
  | none => exact absurd hp (List.find?_eq_none.mp hfind a ha)
  | some b => rw [honly b (List.mem_of_find?_eq_some hfind) (List.find?_some hfind)]

end Search

end NshSfc.Library
