import Mathlib.Data.List.Basic
import Mathlib.Data.List.Nodup

namespace NshSfc.Library

variable {σ α κ : Type} {step : σ → α → σ} {s : σ} {a b : α} {w w' : List α}

def Swap (step : σ → α → σ) (a b : α) : Prop := ∀ s, step (step s a) b = step (step s b) a

theorem foldl_swap (h : ∀ b ∈ w, Swap step a b) (s : σ) :
    w.foldl step (step s a) = step (w.foldl step s) a := by
  induction w generalizing s with
  | nil => rfl
  | cons b w ih =>
    obtain ⟨hb, hw⟩ := List.forall_mem_cons.mp h
    rw [List.foldl_cons, List.foldl_cons, hb s, ih hw]

theorem foldl_flatMap_congr {Inv : σ → Prop} {keys : List κ} {f g : κ → List α}
    (hsame : ∀ c ∈ keys, ∀ s, Inv s → (f c).foldl step s = (g c).foldl step s)
    (hinv : ∀ c ∈ keys, ∀ a ∈ f c, ∀ s, Inv s → Inv (step s a)) (hs : Inv s) :
    (keys.flatMap f).foldl step s = (keys.flatMap g).foldl step s := by
  induction keys generalizing s with
  | nil => rfl
  | cons c keys ih =>
    obtain ⟨hc, hsame⟩ := List.forall_mem_cons.mp hsame
    obtain ⟨hcinv, hinv⟩ := List.forall_mem_cons.mp hinv
    have hafter : Inv ((f c).foldl step s) := by
      generalize f c = u at hcinv
      induction u generalizing s with
      | nil => exact hs
      | cons a u ihu =>
        obtain ⟨ha, hu⟩ := List.forall_mem_cons.mp hcinv
        exact ihu (ha s hs) hu
    rw [List.flatMap_cons, List.flatMap_cons, List.foldl_append, List.foldl_append,
      ih hsame hinv hafter, hc s hs]

section Keys

variable [DecidableEq κ] {key : α → κ} {keys : List κ}

def grouped (key : α → κ) (keys : List κ) (w : List α) : List α :=
  keys.flatMap fun c ↦ w.filter (key · = c)

@[simp] theorem grouped_nil (key : α → κ) (keys : List κ) : grouped key keys [] = [] := by
  simp [grouped]

theorem grouped_cons_of_not_mem (h : key a ∉ keys) : grouped key keys (a :: w) = grouped key keys w := by
  induction keys with
  | nil => rfl
  | cons c keys ih =>
    obtain ⟨hc, hkeys⟩ := not_or.mp (List.mem_cons.not.mp h)
    have hfilter : (a :: w).filter (key · = c) = w.filter (key · = c) :=
      List.filter_cons_of_neg (by simpa using hc)
    have ih := ih hkeys
    simp only [grouped, List.flatMap_cons] at ih ⊢
    rw [hfilter, ih]

theorem foldl_grouped_cons (hnodup : keys.Nodup) (hmem : key a ∈ keys)
    (h : ∀ b ∈ w, key b ≠ key a → Swap step a b) (s : σ) :
    (grouped key keys (a :: w)).foldl step s = (grouped key keys w).foldl step (step s a) := by
  induction keys generalizing s with
  | nil => cases hmem
  | cons c keys ih =>
    obtain ⟨hc, hnodup⟩ := List.nodup_cons.mp hnodup
    have hsplit : ∀ w : List α, grouped key (c :: keys) w =
        w.filter (key · = c) ++ grouped key keys w := fun _ ↦ List.flatMap_cons
    rw [hsplit, hsplit, List.foldl_append, List.foldl_append]
    by_cases hkey : key a = c
    · rw [List.filter_cons_of_pos (by simpa using hkey), List.foldl_cons,
        grouped_cons_of_not_mem (hkey ▸ hc)]
    · -- the letter moves past the group of another key
      have hmem := (List.mem_cons.mp hmem).resolve_left hkey
      have hswap : ∀ b ∈ w.filter (key · = c), Swap step a b := by
        intro b hb
        obtain ⟨hb, hbc⟩ := List.mem_filter.mp hb
        have hbc : key b = c := by simpa using hbc
        exact h b hb (hbc ▸ Ne.symm hkey)
      rw [List.filter_cons_of_neg (by simpa using hkey), ih hnodup hmem, foldl_swap hswap]

/-- When letters with different keys can be swapped and the other letters do nothing, only the order
of the letters with one key matters. -/
theorem foldl_eq_grouped (hnodup : keys.Nodup)
    (hskip : ∀ a ∈ w, key a ∈ keys ∨ ∀ s, step s a = s)
    (hswap : ∀ a ∈ w, ∀ b ∈ w, key a ≠ key b → Swap step a b) (s : σ) :
    w.foldl step s = (grouped key keys w).foldl step s := by
  induction w generalizing s with
  | nil => simp
  | cons a w ih =>
    obtain ⟨ha, hskip⟩ := List.forall_mem_cons.mp hskip
    have hrest : ∀ b ∈ w, ∀ c ∈ w, key b ≠ key c → Swap step b c := fun b hb c hc ↦
      hswap b (List.mem_cons_of_mem _ hb) c (List.mem_cons_of_mem _ hc)
    rw [List.foldl_cons, ih hskip hrest]
    by_cases hmem : key a ∈ keys
    · refine (foldl_grouped_cons hnodup hmem (fun b hb hne ↦ ?_) s).symm
      exact hswap a List.mem_cons_self b (List.mem_cons_of_mem _ hb) hne.symm
    · rw [ha.resolve_left hmem s, grouped_cons_of_not_mem hmem]

end Keys

end NshSfc.Library
