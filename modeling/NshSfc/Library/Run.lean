import Mathlib.Data.List.Basic

namespace NshSfc.Library

/-- A finite run of a labelled transition system, with the labels in order. -/
inductive Run {σ ε : Type} (step : σ → ε → σ → Prop) : σ → List ε → σ → Prop
  | nil (s : σ) : Run step s [] s
  | cons {s t u : σ} {e : ε} {es : List ε} : step s e t → Run step t es u → Run step s (e :: es) u

namespace Run

variable {σ ε : Type} {step : σ → ε → σ → Prop} {s t u : σ} {es es' : List ε}

theorem one {e : ε} (h : step s e t) : Run step s [e] t := .cons h (.nil t)

theorem trans (h : Run step s es t) (h' : Run step t es' u) : Run step s (es ++ es') u := by
  induction h with
  | nil => exact h'
  | cons hs _ ih => exact .cons hs (ih h')

theorem split (h : Run step s (es ++ es') u) : ∃ t, Run step s es t ∧ Run step t es' u := by
  induction es generalizing s with
  | nil => exact ⟨s, .nil s, h⟩
  | cons e es ih =>
    cases h with
    | cons hs hrest =>
      obtain ⟨t, h, h'⟩ := ih hrest
      exact ⟨t, .cons hs h, h'⟩

theorem invariant (h : Run step s es t) (Inv : σ → Prop)
    (hstep : ∀ s e t, Inv s → step s e t → Inv t) (hs : Inv s) : Inv t := by
  induction h with
  | nil => exact hs
  | cons hst _ ih => exact ih (hstep _ _ _ hs hst)

theorem restrict (h : Run step s es t) {P : ε → Prop} (hP : ∀ e ∈ es, P e) :
    Run (fun s e t ↦ step s e t ∧ P e) s es t := by
  induction h with
  | nil => exact .nil _
  | cons hst _ ih =>
    obtain ⟨he, hes⟩ := List.forall_mem_cons.mp hP
    exact .cons ⟨hst, he⟩ (ih hes)

theorem mono {step' : σ → ε → σ → Prop} (hstep : ∀ s e t, step s e t → step' s e t)
    (h : Run step s es t) : Run step' s es t := by
  induction h with
  | nil => exact .nil _
  | cons hst _ ih => exact .cons (hstep _ _ _ hst) ih

/-- A system whose steps carry out at most one action of another one does in a run what the actions
do one after the other. -/
theorem simulates {τ α : Type} {abs : σ → τ} {act : ε → Option α} {next : τ → α → τ}
    (hstep : ∀ s e t, step s e t → abs t = (act e).elim (abs s) (next (abs s)))
    (h : Run step s es t) : abs t = (es.filterMap act).foldl next (abs s) := by
  induction h with
  | nil => rfl
  | @cons s t u e es hst _ ih =>
    rw [ih, hstep s e t hst]
    cases he : act e with
    | none => rw [List.filterMap_cons_none he, Option.elim_none]
    | some a => rw [List.filterMap_cons_some he, Option.elim_some, List.foldl_cons]

end Run

def Always {ε : Type} (P : List ε → ε → Prop) (es : List ε) : Prop :=
  ∀ before e after, es = before ++ e :: after → P before e

section Always

variable {ε : Type} {P Q : List ε → ε → Prop} {es : List ε} {e : ε}

theorem always_nil : Always P [] := by
  intro before e after h
  simp at h

theorem always_cons : Always P (e :: es) ↔ P [] e ∧ Always (fun before ↦ P (e :: before)) es := by
  constructor
  · intro h
    refine ⟨h [] e es rfl, fun before e' after hes ↦ h (e :: before) e' after ?_⟩
    rw [hes, List.cons_append]
  · intro ⟨he, h⟩ before e' after hes
    cases before with
    | nil =>
      obtain ⟨rfl, -⟩ := List.cons.inj hes
      exact he
    | cons x before =>
      obtain ⟨rfl, hes'⟩ := List.cons.inj hes
      exact h before e' after hes'

theorem always_concat : Always P (es ++ [e]) ↔ Always P es ∧ P es e := by
  constructor
  · intro h
    refine ⟨fun before e' after hes ↦ h before e' (after ++ [e]) ?_, h es e [] rfl⟩
    simp [hes]
  · intro ⟨h, he⟩ before e' after hes
    rcases List.eq_nil_or_concat' after with rfl | ⟨after, e'', rfl⟩
    · obtain ⟨rfl, rfl⟩ : es = before ∧ e = e' := by simpa using List.append_inj' hes rfl
      exact he
    · have hes : es ++ [e] = (before ++ e' :: after) ++ [e''] := by simpa using hes
      exact h before e' after (List.append_inj' hes rfl).1

def Last (P : List ε → ε → Prop) (es : List ε) (e : ε) : Prop :=
  ∃ before after, es = before ++ e :: after ∧ P before e ∧
    ∀ b e' a, after = b ++ e' :: a → ¬ P (before ++ e :: b) e'

theorem last_nil : ¬ Last P [] e := by
  intro ⟨before, after, h, _⟩
  simp at h

theorem last_concat {x : ε} : Last P (es ++ [e]) x ↔ (P es e ∧ x = e) ∨ (¬ P es e ∧ Last P es x) := by
  constructor
  · intro ⟨before, after, hes, hx, hafter⟩
    rcases List.eq_nil_or_concat' after with rfl | ⟨after, e', rfl⟩
    · obtain ⟨rfl, rfl⟩ : es = before ∧ e = x := by simpa using List.append_inj' hes rfl
      exact .inl ⟨hx, rfl⟩
    · have hes : es ++ [e] = (before ++ x :: after) ++ [e'] := by simpa using hes
      obtain ⟨rfl, heq⟩ := List.append_inj' hes rfl
      obtain rfl : e = e' := by simpa using heq
      refine .inr ⟨hafter after e [] rfl, before, after, rfl, hx, fun b e'' a ha ↦ ?_⟩
      exact hafter b e'' (a ++ [e]) (by simp [ha])
  · intro h
    rcases h with ⟨he, rfl⟩ | ⟨he, before, after, rfl, hx, hafter⟩
    · exact ⟨es, [], rfl, he, fun b e' a h ↦ by simp at h⟩
    · refine ⟨before, after ++ [e], by simp, hx, fun b e' a h ↦ ?_⟩
      rcases List.eq_nil_or_concat' a with rfl | ⟨a, e'', rfl⟩
      · obtain ⟨rfl, rfl⟩ : after = b ∧ e = e' := by simpa using List.append_inj' h rfl
        exact he
      · have h : after ++ [e] = (b ++ e' :: a) ++ [e''] := by simpa using h
        exact hafter b e' a (List.append_inj' h rfl).1

end Always

end NshSfc.Library
