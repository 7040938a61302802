import Mathlib.Data.List.Infix

namespace NshSfc.Library

variable {α : Type} [DecidableEq α] {sep l p : List α} {a : α}

/-- Split at the occurrences of `sep`, from the left. `skip` elements of an occurrence are left. -/
def splitFrom (sep : List α) : ℕ → List α → List (List α)
  | _, [] => [[]]
  | skip + 1, _ :: l => splitFrom sep skip l
  | 0, a :: l =>
    if sep <+: a :: l then [] :: splitFrom sep (sep.length - 1) l
    else (splitFrom sep 0 l).modifyHead (a :: ·)

def splitText (sep l : List α) : List (List α) := splitFrom sep 0 l

/-- The part before the first occurrence of `sep`, or everything. -/
def upTo (sep : List α) : List α → List α
  | [] => []
  | a :: l => if sep <+: a :: l then [] else a :: upTo sep l

theorem splitText_head (sep l : List α) : (splitText sep l).head? = some (upTo sep l) := by
  unfold splitText
  induction l with
  | nil => rfl
  | cons a l ih =>
    rw [splitFrom, upTo]
    split
    · rfl
    · rw [List.head?_modifyHead, ih]
      rfl

theorem splitFrom_skip (p l : List α) : splitFrom sep p.length (p ++ l) = splitFrom sep 0 l := by
  induction p with
  | nil => rfl
  | cons a p ih => exact ih

theorem splitText_append (hsep : sep ≠ []) (l : List α) :
    splitText sep (sep ++ l) = [] :: splitText sep l := by
  cases hs : sep with
  | nil => exact absurd hs hsep
  | cons a s =>
    rw [splitText, List.cons_append, splitFrom, if_pos]
    · exact congrArg _ (splitFrom_skip s l)
    · exact List.prefix_append (a :: s) l

theorem splitText_second (hsep : sep ≠ []) (l : List α) :
    (splitText sep (sep ++ l))[1]? = some (upTo sep l) := by
  rw [splitText_append hsep, List.getElem?_cons_succ, ← List.head?_eq_getElem?, splitText_head]

theorem exists_upTo_append (sep l : List α) : ∃ r, l = upTo sep l ++ r ∧ (r = [] ∨ sep <+: r) := by
  induction l with
  | nil => exact ⟨[], rfl, .inl rfl⟩
  | cons a l ih =>
    rw [upTo]
    split
    case isTrue h => exact ⟨a :: l, rfl, .inr h⟩
    case isFalse =>
      obtain ⟨r, hl, hr⟩ := ih
      exact ⟨r, congrArg (a :: ·) hl, hr⟩

theorem upTo_eq_self (h : ¬ sep <:+: l) : upTo sep l = l := by
  obtain ⟨r, hl, rfl | ⟨s, rfl⟩⟩ := exists_upTo_append sep l
  · simpa using hl.symm
  · exact absurd ⟨upTo sep l, s, by simpa using hl.symm⟩ h

theorem not_infix_upTo (hsep : sep ≠ []) (l : List α) : ¬ sep <:+: upTo sep l := by
  induction l with
  | nil => simpa [upTo] using hsep
  | cons a l ih =>
    rw [upTo]
    split
    case isTrue => simpa using hsep
    case isFalse h =>
      rw [List.infix_cons_iff, not_or]
      refine ⟨fun hpre ↦ h (hpre.trans ?_), ih⟩
      obtain ⟨r, hl, -⟩ := exists_upTo_append sep l
      exact List.cons_prefix_cons.mpr ⟨rfl, ⟨r, hl.symm⟩⟩

theorem upTo_double (h : ¬ [a, a] <:+: p) (hlast : p.getLast? ≠ some a) (l : List α) :
    upTo [a, a] (p ++ ([a, a] ++ l)) = p := by
  induction p with
  | nil => simp [upTo]
  | cons x p ih =>
    rw [List.infix_cons_iff, not_or] at h
    have hpre : ¬ [a, a] <+: x :: (p ++ ([a, a] ++ l)) := by
      cases p with
      | nil =>
        have hx : x ≠ a := by simpa using hlast
        simp [hx.symm]
      | cons y p =>
        intro hxy
        obtain ⟨rfl, rfl, -⟩ : a = x ∧ a = y ∧ True := by simpa using hxy
        exact h.1 ⟨p, rfl⟩
    have hlast' : p.getLast? ≠ some a := by
      cases p with
      | nil => simp
      | cons y p => simpa using hlast
    rw [List.cons_append, upTo, if_neg hpre, ih h.2 hlast']

theorem not_mem_of_mem_splitOn {xs : List α} (h : p ∈ xs.splitOn a) : a ∉ p := by
  induction xs generalizing p with
  | nil =>
    obtain rfl : p = [] := by simpa using h
    simp
  | cons x xs ih =>
    rw [List.splitOn_cons_eq_if_modifyHead] at h
    split at h
    case isTrue =>
      rcases List.mem_cons.mp h with rfl | h
      · simp
      · exact ih h
    case isFalse hx =>
      cases hs : xs.splitOn a with
      | nil => exact absurd hs (List.splitOn_ne_nil a xs)
      | cons q qs =>
        rw [hs] at h ih
        rcases List.mem_cons.mp h with rfl | h
        · have hax : ¬ a = x := fun heq ↦ hx (by simp [heq])
          simpa [hax] using ih List.mem_cons_self
        · exact ih (List.mem_cons_of_mem q h)

end NshSfc.Library
