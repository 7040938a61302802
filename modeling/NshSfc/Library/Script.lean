import Mathlib.Data.List.Forall2

namespace NshSfc.Library

/-- A computation that sends messages while it runs and may stop with an error.
Messages sent before the error stay sent. -/
@[ext] structure Script (μ ε α : Type) where
  sent : List μ
  result : Except ε α

namespace Script

variable {μ ε α β : Type}

instance : Monad (Script μ ε) where
  pure a := ⟨[], .ok a⟩
  bind x f := match x.result with
    | .ok a => ⟨x.sent ++ (f a).sent, (f a).result⟩
    | .error e => ⟨x.sent, .error e⟩

def send (m : μ) : Script μ ε Unit := ⟨[m], .ok ()⟩

def raise (e : ε) : Script μ ε α := ⟨[], .error e⟩

def lift (r : Except ε α) : Script μ ε α := ⟨[], r⟩

def forEach (f : α → Script μ ε Unit) : List α → Script μ ε Unit
  | [] => pure ()
  | a :: as => do f a; forEach f as

def catching (p : ε → Bool) (x : Script μ ε Unit) : Script μ ε Unit where
  sent := x.sent
  result := match x.result with
    | .ok a => .ok a
    | .error e => if p e then .ok () else .error e

@[simp] theorem pure_sent (a : α) : (pure a : Script μ ε α).sent = [] := rfl
@[simp] theorem pure_result (a : α) : (pure a : Script μ ε α).result = .ok a := rfl
@[simp] theorem send_sent (m : μ) : (send m : Script μ ε Unit).sent = [m] := rfl
@[simp] theorem send_result (m : μ) : (send m : Script μ ε Unit).result = .ok () := rfl
@[simp] theorem raise_sent (e : ε) : (raise e : Script μ ε α).sent = [] := rfl
@[simp] theorem raise_result (e : ε) : (raise e : Script μ ε α).result = .error e := rfl
@[simp] theorem lift_sent (r : Except ε α) : (lift r : Script μ ε α).sent = [] := rfl
@[simp] theorem lift_result (r : Except ε α) : (lift r : Script μ ε α).result = r := rfl
@[simp] theorem catching_sent (p : ε → Bool) (x : Script μ ε Unit) :
    (catching p x).sent = x.sent := rfl

theorem eq_of_sent_nil {x : Script μ ε α} {r : Except ε α} (hs : x.sent = []) (hr : x.result = r) :
    x = lift r := by
  cases x
  subst hs hr
  rfl

theorem bind_of_ok {x : Script μ ε α} {a : α} (h : x.result = .ok a) (f : α → Script μ ε β) :
    x >>= f = ⟨x.sent ++ (f a).sent, (f a).result⟩ := by
  show (match x.result with | .ok a => _ | .error e => _) = _
  rw [h]

theorem bind_of_error {x : Script μ ε α} {e : ε} (h : x.result = .error e)
    (f : α → Script μ ε β) : x >>= f = ⟨x.sent, .error e⟩ := by
  show (match x.result with | .ok a => _ | .error e => _) = _
  rw [h]

@[simp] theorem pure_bind (a : α) (f : α → Script μ ε β) : (pure a : Script μ ε α) >>= f = f a := by
  rw [bind_of_ok (pure_result a)]
  simp

@[simp] theorem raise_bind (e : ε) (f : α → Script μ ε β) :
    (raise e : Script μ ε α) >>= f = raise e := bind_of_error rfl f

@[simp] theorem send_bind_sent (m : μ) (f : Unit → Script μ ε β) :
    ((send m : Script μ ε Unit) >>= f).sent = m :: (f ()).sent := by
  rw [bind_of_ok (send_result m)]
  rfl

@[simp] theorem send_bind_result (m : μ) (f : Unit → Script μ ε β) :
    ((send m : Script μ ε Unit) >>= f).result = (f ()).result := by
  rw [bind_of_ok (send_result m)]

theorem bind_result_ok {x : Script μ ε α} {f : α → Script μ ε β} {b : β} :
    (x >>= f).result = .ok b ↔ ∃ a, x.result = .ok a ∧ (f a).result = .ok b := by
  cases hx : x.result with
  | ok a => simp [bind_of_ok hx]
  | error e => simp [bind_of_error hx]

theorem mem_bind_sent {x : Script μ ε α} {f : α → Script μ ε β} {m : μ} :
    m ∈ (x >>= f).sent ↔ m ∈ x.sent ∨ ∃ a, x.result = .ok a ∧ m ∈ (f a).sent := by
  cases hx : x.result with
  | ok a => simp [bind_of_ok hx]
  | error e => simp [bind_of_error hx]

theorem bind_congr_of_ends {x : Script μ ε α} {f g : α → Script μ ε β} {e : ε}
    (h : (x >>= f).result ≠ .error e)
    (hfg : ∀ a, x.result = .ok a → (f a).result ≠ .error e → g a = f a) :
    x >>= g = x >>= f := by
  cases hx : x.result with
  | error e' => rw [bind_of_error hx, bind_of_error hx]
  | ok a =>
    rw [bind_of_ok hx] at h
    rw [bind_of_ok hx, bind_of_ok hx, hfg a hx h]

section Loop

variable (f : α → Script μ ε Unit)

@[simp] theorem forEach_cons (a : α) (as : List α) :
    forEach f (a :: as) = f a >>= fun _ ↦ forEach f as := rfl

theorem forEach_of_ok {as : List α} (h : ∀ a ∈ as, (f a).result = .ok ()) :
    forEach f as = ⟨as.flatMap fun a ↦ (f a).sent, .ok ()⟩ := by
  induction as with
  | nil => rfl
  | cons a as ih =>
    rw [forEach_cons, bind_of_ok (h a List.mem_cons_self), ih fun b hb ↦ h b (List.mem_cons_of_mem a hb)]
    simp

end Loop

/-- Every message satisfies `P`, and a normal result satisfies `Q`. -/
structure Ensures (P : μ → Prop) (x : Script μ ε α) (Q : α → Prop) : Prop where
  sent : ∀ m ∈ x.sent, P m
  result : ∀ a, x.result = .ok a → Q a

section Ensures

variable {P : μ → Prop} {Q : α → Prop} {Q' : β → Prop}

theorem Ensures.pure {a : α} (h : Q a) : Ensures P (pure a : Script μ ε α) Q where
  sent := by simp
  result := by rintro b hb; cases hb; exact h

theorem Ensures.send {m : μ} (hm : P m) : Ensures P (send m : Script μ ε Unit) fun _ ↦ True where
  sent := by simpa using hm
  result := fun _ _ ↦ trivial

theorem Ensures.raise (e : ε) : Ensures P (raise e : Script μ ε α) Q where
  sent := by simp
  result := by rintro b hb; cases hb

theorem Ensures.lift {r : Except ε α} (h : ∀ a, r = .ok a → Q a) :
    Ensures P (lift r : Script μ ε α) Q where
  sent := by simp
  result := h

theorem Ensures.bind {x : Script μ ε α} {f : α → Script μ ε β} (hx : Ensures P x Q)
    (hf : ∀ a, x.result = .ok a → Q a → Ensures P (f a) Q') : Ensures P (x >>= f) Q' where
  sent := by
    intro m hm
    rcases mem_bind_sent.mp hm with hm | ⟨a, ha, hm⟩
    · exact hx.sent m hm
    · exact (hf a ha (hx.result a ha)).sent m hm
  result := by
    intro b hb
    obtain ⟨a, ha, hb⟩ := bind_result_ok.mp hb
    exact (hf a ha (hx.result a ha)).result b hb

theorem Ensures.mono {P' : μ → Prop} {Q' : α → Prop} {x : Script μ ε α} (h : Ensures P x Q)
    (hP : ∀ m, P m → P' m) (hQ : ∀ a, Q a → Q' a) : Ensures P' x Q' where
  sent := fun m hm ↦ hP m (h.sent m hm)
  result := fun a ha ↦ hQ a (h.result a ha)

theorem Ensures.forEach {f : α → Script μ ε Unit} {as : List α}
    (h : ∀ a ∈ as, Ensures P (f a) fun _ ↦ True) : Ensures P (forEach f as) fun _ ↦ True := by
  induction as with
  | nil => exact .pure trivial
  | cons a as ih =>
    exact .bind (h a List.mem_cons_self) fun _ _ _ ↦
      ih fun b hb ↦ h b (List.mem_cons_of_mem a hb)

end Ensures

/-- Two computations end alike and send messages that `R` relates one by one. -/
structure Parallel (R : μ → μ → Prop) (x y : Script μ ε α) : Prop where
  sent : List.Forall₂ R x.sent y.sent
  result : x.result = y.result

section Parallel

variable {R : μ → μ → Prop}

theorem Parallel.refl (hR : ∀ m, R m m) (x : Script μ ε α) : Parallel R x x :=
  ⟨List.forall₂_same.mpr fun m _ ↦ hR m, rfl⟩

theorem Parallel.send {m n : μ} (h : R m n) :
    Parallel R (send m : Script μ ε Unit) (send n) := ⟨.cons h .nil, rfl⟩

theorem Parallel.bind {x y : Script μ ε α} {f g : α → Script μ ε β} (hx : Parallel R x y)
    (hf : ∀ a, x.result = .ok a → Parallel R (f a) (g a)) : Parallel R (x >>= f) (y >>= g) := by
  cases h : x.result with
  | ok a =>
    rw [bind_of_ok h, bind_of_ok (hx.result ▸ h)]
    exact ⟨List.rel_append hx.sent (hf a h).sent, (hf a h).result⟩
  | error e =>
    rw [bind_of_error h, bind_of_error (hx.result ▸ h)]
    exact ⟨hx.sent, rfl⟩

theorem Parallel.exists_of_mem {x y : Script μ ε α} (h : Parallel R x y) {m : μ}
    (hm : m ∈ x.sent) : ∃ n ∈ y.sent, R m n := by
  have hs := h.sent
  generalize x.sent = ms at hm hs
  generalize y.sent = ns at hs
  induction hs with
  | nil => simp at hm
  | @cons a b as bs hab _ ih =>
    rcases List.mem_cons.mp hm with rfl | hm
    · exact ⟨b, List.mem_cons_self, hab⟩
    · obtain ⟨n, hn, hr⟩ := ih hm
      exact ⟨n, List.mem_cons_of_mem b hn, hr⟩

end Parallel

end Script

end NshSfc.Library
