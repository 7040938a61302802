import NshSfc.Library.Layout
import NshSfc.Library.Sequencing

namespace NshSfc.Library

/-- A format of a fixed size. What has been packed is read again from the front of any buffer, and
what has been read can be packed. -/
structure Format (ε α : Type) where
  size : ℕ
  pack : α → Except ε (List UInt8)
  unpackFrom : List UInt8 → Except ε α
  length_pack {a : α} {bs : List UInt8} (h : pack a = .ok bs) : bs.length = size
  unpackFrom_append {a : α} {bs : List UInt8} (h : pack a = .ok bs) (rest : List UInt8) :
    unpackFrom (bs ++ rest) = .ok a
  size_le {a : α} {buf : List UInt8} (h : unpackFrom buf = .ok a) : size ≤ buf.length
  exists_pack {a : α} {buf : List UInt8} (h : unpackFrom buf = .ok a) : ∃ bs, pack a = .ok bs

namespace Format

variable {ε α β : Type}

theorem drop_pack (f : Format ε α) {a : α} {bs : List UInt8} (h : f.pack a = .ok bs)
    (rest : List UInt8) : (bs ++ rest).drop f.size = rest := by
  rw [← f.length_pack h, List.drop_left]

section Constructions

-- the error of a number that does not fit, and of a buffer that is too short
variable (e : ε)

def num (w : ℕ) : Format ε ℕ where
  size := w
  pack n := if n < 256 ^ w then .ok (toBytes w n) else .error e
  unpackFrom buf := if buf.length < w then .error e else .ok (fromBytes (buf.take w))
  length_pack h := by
    split at h
    · obtain rfl := Except.ok.inj h
      exact length_toBytes w _
    · cases h
  unpackFrom_append {n bs} h rest := by
    split at h
    case isTrue hn =>
      obtain rfl := Except.ok.inj h
      have hlong : ¬ (toBytes w n ++ rest).length < w := by simp
      have htake : (toBytes w n ++ rest).take w = toBytes w n :=
        List.take_left' (length_toBytes w n)
      rw [if_neg hlong, htake, fromBytes_toBytes, Nat.mod_eq_of_lt hn]
    case isFalse => cases h
  size_le h := by
    split at h
    case isTrue => cases h
    case isFalse hlong => exact not_lt.mp hlong
  exists_pack {n buf} h := by
    split at h
    case isTrue => cases h
    case isFalse hlong =>
      obtain rfl := Except.ok.inj h
      have hlt := fromBytes_lt (buf.take w)
      rw [List.length_take_of_le (not_lt.mp hlong)] at hlt
      exact ⟨_, if_pos hlt⟩

theorem num_pack {w n : ℕ} {bs : List UInt8} (h : (num e w).pack n = .ok bs) : n < 256 ^ w := by
  by_contra hn
  have herror : (num e w).pack n = .error e := if_neg hn
  rw [herror] at h
  cases h

theorem num_pack_of_lt {w n : ℕ} (h : n < 256 ^ w) : (num e w).pack n = .ok (toBytes w n) := if_pos h

/-- Bytes that are zero when they are written, and are not looked at. -/
def pad (n : ℕ) : Format ε Unit where
  size := n
  pack _ := .ok (List.replicate n 0)
  unpackFrom buf := if buf.length < n then .error e else .ok ()
  length_pack h := by
    obtain rfl := Except.ok.inj h
    exact List.length_replicate
  unpackFrom_append h rest := by
    obtain rfl := Except.ok.inj h
    have hlong : ¬ (List.replicate n (0 : UInt8) ++ rest).length < n := by simp
    rw [if_neg hlong]
  size_le h := by
    split at h
    case isTrue => cases h
    case isFalse hlong => exact not_lt.mp hlong
  exists_pack _ := ⟨_, rfl⟩

def raw (n : ℕ) : Format ε { bs : List UInt8 // bs.length = n } where
  size := n
  pack bs := .ok bs.1
  unpackFrom buf :=
    if h : buf.length < n then .error e
    else .ok ⟨buf.take n, List.length_take_of_le (not_lt.mp h)⟩
  length_pack {bs _} h := by
    obtain rfl := Except.ok.inj h
    exact bs.2
  unpackFrom_append {bs _} h rest := by
    obtain rfl := Except.ok.inj h
    have hlong : ¬ (bs.1 ++ rest).length < n := by simp [bs.2]
    rw [dif_neg hlong]
    exact congrArg Except.ok (Subtype.ext (List.take_left' bs.2))
  size_le h := by
    split at h
    case isTrue => cases h
    case isFalse hlong => exact not_lt.mp hlong
  exists_pack _ := ⟨_, rfl⟩

end Constructions

def seq (f : Format ε α) (g : Format ε β) : Format ε (α × β) where
  size := f.size + g.size
  pack p := do
    let bs ← f.pack p.1
    let cs ← g.pack p.2
    return bs ++ cs
  unpackFrom buf := do
    let a ← f.unpackFrom buf
    let b ← g.unpackFrom (buf.drop f.size)
    return (a, b)
  length_pack h := by
    obtain ⟨bs, hbs, h⟩ := bind_eq_ok h
    obtain ⟨cs, hcs, h⟩ := bind_eq_ok h
    obtain rfl := Except.ok.inj h
    rw [List.length_append, f.length_pack hbs, g.length_pack hcs]
  unpackFrom_append {p _} h rest := by
    obtain ⟨bs, hbs, h⟩ := bind_eq_ok h
    obtain ⟨cs, hcs, h⟩ := bind_eq_ok h
    obtain rfl := Except.ok.inj h
    rw [List.append_assoc, f.unpackFrom_append hbs, f.drop_pack hbs, g.unpackFrom_append hcs]
    rfl
  size_le {p buf} h := by
    obtain ⟨a, ha, h⟩ := bind_eq_ok h
    obtain ⟨b, hb, -⟩ := bind_eq_ok h
    have hf := f.size_le ha
    have hg := g.size_le hb
    rw [List.length_drop] at hg
    omega
  exists_pack h := by
    obtain ⟨a, ha, h⟩ := bind_eq_ok h
    obtain ⟨b, hb, h⟩ := bind_eq_ok h
    obtain rfl := Except.ok.inj h
    obtain ⟨bs, hbs⟩ := f.exists_pack ha
    obtain ⟨cs, hcs⟩ := g.exists_pack hb
    refine ⟨bs ++ cs, ?_⟩
    rw [hbs, hcs]
    rfl

theorem seq_pack {f : Format ε α} {g : Format ε β} {a : α} {b : β} {bs : List UInt8} :
    (f.seq g).pack (a, b) = .ok bs ↔
      ∃ as cs, f.pack a = .ok as ∧ g.pack b = .ok cs ∧ bs = as ++ cs := by
  constructor
  · intro h
    obtain ⟨as, has, h⟩ := bind_eq_ok h
    obtain ⟨cs, hcs, h⟩ := bind_eq_ok h
    exact ⟨as, cs, has, hcs, (Except.ok.inj h).symm⟩
  · intro h
    obtain ⟨as, cs, has, hcs, rfl⟩ := h
    have hpack : (f.seq g).pack (a, b) = (do
      let bs ← f.pack a
      let cs ← g.pack b
      return bs ++ cs) := rfl
    rw [hpack, has, hcs]
    rfl

theorem seq_seq_pack {γ : Type} {f : Format ε α} {g : Format ε β} {k : Format ε γ} {a : α} {b : β}
    {c : γ} {bs : List UInt8} (h : (f.seq (g.seq k)).pack (a, b, c) = .ok bs) :
    ∃ head tail, (f.seq g).pack (a, b) = .ok head ∧ k.pack c = .ok tail ∧ bs = head ++ tail := by
  obtain ⟨as, ds, has, hds, rfl⟩ := seq_pack.mp h
  obtain ⟨cs, es, hcs, hes, rfl⟩ := seq_pack.mp hds
  exact ⟨as ++ cs, es, seq_pack.mpr ⟨as, cs, has, hcs, rfl⟩, hes, (List.append_assoc _ _ _).symm⟩

def map (f : Format ε α) (forth : α → β) (back : β → α) (hback : ∀ b, forth (back b) = b)
    (hforth : ∀ a, back (forth a) = a) : Format ε β where
  size := f.size
  pack b := f.pack (back b)
  unpackFrom buf := (f.unpackFrom buf).map forth
  length_pack h := f.length_pack h
  unpackFrom_append {b bs} h rest := by
    rw [f.unpackFrom_append h, Except.map, hback]
  size_le {b buf} h := by
    cases ha : f.unpackFrom buf with
    | error e =>
      rw [ha] at h
      cases h
    | ok a => exact f.size_le ha
  exists_pack {b buf} h := by
    cases ha : f.unpackFrom buf with
    | error e =>
      rw [ha] at h
      cases h
    | ok a =>
      rw [ha] at h
      obtain rfl := Except.ok.inj h
      rw [hforth]
      exact f.exists_pack ha

def padded (f : Format ε α) (e : ε) (n : ℕ) : Format ε α :=
  (f.seq (pad e n)).map Prod.fst (fun a ↦ (a, ())) (fun _ ↦ rfl) fun _ ↦ rfl

theorem padded_pack {f : Format ε α} {e : ε} {n : ℕ} {a : α} {bs : List UInt8} :
    (f.padded e n).pack a = .ok bs ↔ ∃ as, f.pack a = .ok as ∧ bs = as ++ List.replicate n 0 := by
  have hpack : (f.padded e n).pack a = (f.seq (pad e n)).pack (a, ()) := rfl
  rw [hpack, seq_pack]
  constructor
  · intro h
    obtain ⟨as, zeros, has, hzeros, rfl⟩ := h
    obtain rfl := Except.ok.inj hzeros
    exact ⟨as, has, rfl⟩
  · intro h
    obtain ⟨as, has, rfl⟩ := h
    exact ⟨as, _, has, rfl, rfl⟩

def indented (f : Format ε α) (e : ε) (n : ℕ) : Format ε α :=
  ((pad e n).seq f).map Prod.snd (fun a ↦ ((), a)) (fun _ ↦ rfl) fun _ ↦ rfl

section Lists

variable (f : Format ε α)

def packAll : List α → Except ε (List UInt8)
  | [] => .ok []
  | a :: as => do
    let bs ← f.pack a
    let cs ← packAll as
    return bs ++ cs

def unpackAll : ℕ → List UInt8 → Except ε (List α)
  | 0, _ => .ok []
  | n + 1, buf => do
    let a ← f.unpackFrom buf
    let as ← unpackAll n (buf.drop f.size)
    return a :: as

variable {f} {as : List α} {bs : List UInt8}

theorem length_packAll (h : f.packAll as = .ok bs) : bs.length = as.length * f.size := by
  induction as generalizing bs with
  | nil =>
    obtain rfl := Except.ok.inj h
    simp
  | cons a as ih =>
    obtain ⟨cs, hcs, h⟩ := bind_eq_ok h
    obtain ⟨ds, hds, h⟩ := bind_eq_ok h
    obtain rfl := Except.ok.inj h
    rw [List.length_append, f.length_pack hcs, ih hds, List.length_cons, Nat.succ_mul, Nat.add_comm]

theorem packAll_append {as' : List α} {bs' : List UInt8} (h : f.packAll as = .ok bs)
    (h' : f.packAll as' = .ok bs') : f.packAll (as ++ as') = .ok (bs ++ bs') := by
  induction as generalizing bs with
  | nil =>
    obtain rfl := Except.ok.inj h
    exact h'
  | cons a as ih =>
    obtain ⟨cs, hcs, h⟩ := bind_eq_ok h
    obtain ⟨ds, hds, h⟩ := bind_eq_ok h
    obtain rfl := Except.ok.inj h
    rw [List.cons_append, packAll, hcs, ih hds, List.append_assoc]
    rfl

theorem unpackAll_append (h : f.packAll as = .ok bs) (rest : List UInt8) :
    f.unpackAll as.length (bs ++ rest) = .ok as := by
  induction as generalizing bs with
  | nil => rfl
  | cons a as ih =>
    obtain ⟨cs, hcs, h⟩ := bind_eq_ok h
    obtain ⟨ds, hds, h⟩ := bind_eq_ok h
    obtain rfl := Except.ok.inj h
    rw [List.length_cons, unpackAll, List.append_assoc, f.unpackFrom_append hcs, f.drop_pack hcs]
    change f.unpackAll as.length (ds ++ rest) >>= _ = _
    rw [ih hds]
    rfl

end Lists

end Format

end NshSfc.Library
