import Mathlib.Data.Int.Bitwise

namespace NshSfc.Python

inductive PyError
  | keyError
  | typeError
  | attributeError
  | valueError
  | assertionError
  | unboundLocalError
  | indexError
  | unicodeDecodeError
  | osError
  | structError
deriving DecidableEq, Repr

/-- How a computation stops short. `outOfFuel` is not an outcome of the program:
it marks a loop that was cut off before it ended. -/
inductive Stop
  | raised (e : PyError)
  | outOfFuel
deriving DecidableEq, Repr

class Truthy (α : Type) where
  truthy : α → Bool

export Truthy (truthy)

instance : Truthy Int := ⟨fun n ↦ n ≠ 0⟩
instance : Truthy String := ⟨fun s ↦ s ≠ ""⟩
instance {α : Type} [Truthy α] : Truthy (Option α) := ⟨fun o ↦ o.any truthy⟩

@[simp] theorem truthy_none {α : Type} [Truthy α] : truthy (none : Option α) = false := rfl
@[simp] theorem truthy_some {α : Type} [Truthy α] (a : α) : truthy (some a) = truthy a := rfl
@[simp] theorem truthy_int (n : Int) : truthy n = decide (n ≠ 0) := rfl
@[simp] theorem truthy_string (s : String) : truthy s = decide (s ≠ "") := rfl

/-- The code points of the zeros of the decimal digit runs that `int` accepts (Unicode 9). -/
def decimalZeros : List ℕ :=
  [0x30, 0x660, 0x6f0, 0x7c0, 0x966, 0x9e6, 0xa66, 0xae6, 0xb66, 0xbe6, 0xc66, 0xce6, 0xd66, 0xde6,
   0xe50, 0xed0, 0xf20, 0x1040, 0x1090, 0x17e0, 0x1810, 0x1946, 0x19d0, 0x1a80, 0x1a90, 0x1b50,
   0x1bb0, 0x1c40, 0x1c50, 0xa620, 0xa8d0, 0xa900, 0xa9d0, 0xa9f0, 0xaa50, 0xabf0, 0xff10, 0x104a0,
   0x11066, 0x110f0, 0x11136, 0x111d0, 0x112f0, 0x11450, 0x114d0, 0x11650, 0x116c0, 0x11730,
   0x118e0, 0x11c50, 0x16a60, 0x16ac0, 0x16b50, 0x1d7ce, 0x1d7d8, 0x1d7e2, 0x1d7ec, 0x1d7f6,
   0x1e950]

def digitValue (c : Char) : Option ℕ :=
  (decimalZeros.find? fun z ↦ z ≤ c.toNat ∧ c.toNat < z + 10).map (c.toNat - ·)

/-- The blanks that `int` strips. The ASCII separators 0x1c to 0x1f are not among them. -/
def intSpaces : List ℕ :=
  [0x9, 0xa, 0xb, 0xc, 0xd, 0x20, 0x85, 0xa0, 0x1680, 0x2000, 0x2001, 0x2002, 0x2003, 0x2004, 0x2005,
   0x2006, 0x2007, 0x2008, 0x2009, 0x200a, 0x2028, 0x2029, 0x202f, 0x205f, 0x3000]

def isIntSpace (c : Char) : Bool := c.toNat ∈ intSpaces

def digitsFrom (acc : ℕ) : List Char → Option ℕ
  | [] => some acc
  | '_' :: c :: cs => (digitValue c).bind fun d ↦ digitsFrom (10 * acc + d) cs
  | c :: cs => (digitValue c).bind fun d ↦ digitsFrom (10 * acc + d) cs

def digits : List Char → Option ℕ
  | [] => none
  | c :: cs => (digitValue c).bind fun d ↦ digitsFrom d cs

def strip (s : List Char) : List Char :=
  ((s.dropWhile isIntSpace).reverse.dropWhile isIntSpace).reverse

def intOfString (s : List Char) : Except PyError Int :=
  let value : Option Int := match strip s with
    | '-' :: ds => (digits ds).map fun n ↦ -(n : Int)
    | '+' :: ds => (digits ds).map fun n ↦ (n : Int)
    | ds => (digits ds).map fun n ↦ (n : Int)
  match value with
  | some n => .ok n
  | none => .error .valueError

def place (length : ℕ) (i : Int) : Except PyError ℕ :=
  let j := if i < 0 then i + length else i
  if 0 ≤ j ∧ j < length then .ok j.toNat else .error .indexError

def getItem {α : Type} (l : List α) (i : Int) : Except PyError α := do
  match l[← place l.length i]? with
  | some a => .ok a
  | none => .error .indexError

def setItem {α : Type} (l : List α) (i : Int) (a : α) : Except PyError (List α) := do
  return l.set (← place l.length i) a

theorem place_natCast {length j : ℕ} (hj : j < length) : place length j = .ok j := by
  have hnonneg : ¬ (j : Int) < 0 := by omega
  simp [place, hnonneg, hj]

theorem getItem_natCast {α : Type} {l : List α} {j : ℕ} (hj : j < l.length) :
    getItem l j = .ok l[j] := by
  rw [getItem, place_natCast hj]
  simp [Bind.bind, Except.bind, hj]

theorem setItem_natCast {α : Type} {l : List α} {j : ℕ} (hj : j < l.length) (a : α) :
    setItem l j a = .ok (l.set j a) := by
  rw [setItem, place_natCast hj]
  rfl

def intOfColumn : Option Int → Except PyError Int
  | some n => .ok n
  | none => .error .typeError

@[simp] theorem intOfColumn_ok {o : Option Int} {n : Int} : intOfColumn o = .ok n ↔ o = some n := by
  cases o <;> simp [intOfColumn]

def ipv4Octets (i : Int) : List (List Char) → Except PyError Int
  | [] => .ok i
  | b :: bs => do
    let b ← intOfString b
    ipv4Octets (Int.lor (i * 2 ^ 8) b) bs

/-- `ipv4_to_int`. A NULL column reaches `string.split` as `None`. -/
def ipv4ToInt : Option String → Except PyError Int
  | none => .error .attributeError
  | some string =>
    let ip := string.toList.splitOn '.'
    if ip.length = 4 then ipv4Octets 0 ip else .error .assertionError

theorem intOfString_error {s : List Char} {e : PyError} (h : intOfString s = .error e) :
    e = .valueError := by
  unfold intOfString at h
  dsimp only at h
  split at h
  · cases h
  · exact (Except.error.inj h).symm

theorem digitsFrom_last {acc n : ℕ} {s : List Char} {c : Char} (h : digitsFrom acc s = some n)
    (hc : s.getLast? = some c) : (digitValue c).isSome := by
  induction acc, s using digitsFrom.induct with
  | case1 acc => cases hc
  | case2 acc c' cs ih =>
    rw [digitsFrom] at h
    obtain ⟨d, hd, h⟩ := Option.bind_eq_some_iff.mp h
    cases cs with
    | nil =>
      obtain rfl : c' = c := by simpa using hc
      simp [hd]
    | cons x cs => exact ih d h (by simpa using hc)
  | case3 acc c' cs hne ih =>
    rw [digitsFrom] at h
    · obtain ⟨d, hd, h⟩ := Option.bind_eq_some_iff.mp h
      cases cs with
      | nil =>
        obtain rfl : c' = c := by simpa using hc
        simp [hd]
      | cons x cs => exact ih d h (by simpa using hc)
    · exact hne

theorem digits_last {n : ℕ} {s : List Char} {c : Char} (h : digits s = some n)
    (hc : s.getLast? = some c) : (digitValue c).isSome := by
  cases s with
  | nil => cases hc
  | cons x s =>
    obtain ⟨d, hd, h⟩ := Option.bind_eq_some_iff.mp h
    cases s with
    | nil =>
      obtain rfl : x = c := by simpa using hc
      simp [hd]
    | cons y s => exact digitsFrom_last h (by simpa using hc)

theorem strip_last {s : List Char} {c : Char} (hc : s.getLast? = some c) (hspace : ¬ isIntSpace c) :
    (strip s).getLast? = some c := by
  obtain ⟨l, rfl⟩ := List.getLast?_eq_some_iff.mp hc
  have hdrop : ∃ l', (l ++ [c]).dropWhile isIntSpace = l' ++ [c] := by
    induction l with
    | nil => exact ⟨[], by simp [hspace]⟩
    | cons x l ih =>
      by_cases hx : isIntSpace x
      · simpa [hx] using ih (by simp)
      · exact ⟨x :: l, by simp [hx]⟩
  obtain ⟨l', hl'⟩ := hdrop
  rw [strip, hl', List.reverse_concat, List.dropWhile_cons_of_neg hspace]
  simp

theorem intOfString_last {s : List Char} {n : Int} {c : Char} (h : intOfString s = .ok n)
    (hc : s.getLast? = some c) : isIntSpace c ∨ (digitValue c).isSome := by
  by_cases hspace : isIntSpace c
  · exact .inl hspace
  refine .inr ?_
  have hlast := strip_last hc hspace
  unfold intOfString at h
  generalize strip s = t at h hlast
  dsimp only at h
  have hsome : ∀ ds : List Char, ds.getLast? = some c → digits ds ≠ none → (digitValue c).isSome := by
    intro ds hds hne
    obtain ⟨k, hk⟩ := Option.ne_none_iff_exists'.mp hne
    exact digits_last hk hds
  have htail : ∀ x ds, t = x :: ds → digits ds ≠ none → ds.getLast? = some c := by
    rintro x ds rfl hne
    cases ds with
    | nil => exact absurd rfl hne
    | cons y ds => simpa using hlast
  split at h
  case h_1 m hm =>
    split at hm
    case h_1 ds =>
      have hne : digits ds ≠ none := by
        intro hnone
        simp [hnone] at hm
      exact hsome ds (htail '-' ds rfl hne) hne
    case h_2 ds =>
      have hne : digits ds ≠ none := by
        intro hnone
        simp [hnone] at hm
      exact hsome ds (htail '+' ds rfl hne) hne
    case h_3 =>
      refine hsome t hlast fun hnone ↦ ?_
      simp [hnone] at hm
  case h_2 => cases h

section Decimal

variable {s : List Char}

theorem toNat_of_isDigit {c : Char} (h : c.isDigit) : 48 ≤ c.toNat ∧ c.toNat < 58 := by
  simp only [Char.isDigit, Bool.and_eq_true, decide_eq_true_eq] at h
  obtain ⟨hlow, hhigh⟩ := h
  exact ⟨hlow, Nat.lt_succ_of_le hhigh⟩

theorem digitValue_of_isDigit {c : Char} (h : c.isDigit) : digitValue c = some (c.toNat - 48) := by
  obtain ⟨hlow, hhigh⟩ := toNat_of_isDigit h
  rw [digitValue, decimalZeros, List.find?_cons_of_pos (by simpa using ⟨hlow, hhigh⟩)]
  rfl

theorem not_isIntSpace_of_isDigit {c : Char} (h : c.isDigit) : ¬ isIntSpace c := by
  obtain ⟨hlow, hhigh⟩ := toNat_of_isDigit h
  simp only [isIntSpace, intSpaces, decide_eq_true_eq, List.mem_cons, List.not_mem_nil, or_false]
  omega

theorem digitsFrom_decimal (hs : ∀ c ∈ s, c.isDigit) (acc : ℕ) :
    digitsFrom acc s = some (Nat.ofDigitChars 10 s acc) := by
  induction s generalizing acc with
  | nil => rw [digitsFrom, Nat.ofDigitChars_nil]
  | cons c s ih =>
    obtain ⟨hc, hs⟩ := List.forall_mem_cons.mp hs
    have hne : c ≠ '_' := by
      rintro rfl
      exact absurd hc (by decide)
    have hbind : (digitValue c).bind (fun d ↦ digitsFrom (10 * acc + d) s) =
        some (Nat.ofDigitChars 10 (c :: s) acc) := by
      rw [digitValue_of_isDigit hc, Option.bind_some, ih hs, Nat.ofDigitChars_cons]
      rfl
    rw [digitsFrom]
    · exact hbind
    · exact fun _ _ h ↦ absurd h hne

theorem strip_of_ends {c d : Char} (hc : ¬ isIntSpace c) (hd : ¬ isIntSpace d)
    (hhead : s.head? = some c) (hlast : s.getLast? = some d) : strip s = s := by
  obtain ⟨t, rfl⟩ := List.head?_eq_some_iff.mp hhead
  obtain ⟨u, hu⟩ := List.getLast?_eq_some_iff.mp hlast
  rw [strip, List.dropWhile_cons_of_neg hc, hu, List.reverse_concat, List.dropWhile_cons_of_neg hd,
    ← List.reverse_concat, List.reverse_reverse]

theorem intOfString_decimal (hne : s ≠ []) (hs : ∀ c ∈ s, c.isDigit) :
    intOfString s = .ok (Nat.ofDigitChars 10 s 0 : ℕ) := by
  obtain ⟨c, t, rfl⟩ := List.exists_cons_of_ne_nil hne
  obtain ⟨hc, ht⟩ := List.forall_mem_cons.mp hs
  have hlast := hs _ (List.getLast_mem hne)
  have hstrip : strip (c :: t) = c :: t :=
    strip_of_ends (not_isIntSpace_of_isDigit hc) (not_isIntSpace_of_isDigit hlast) rfl
      (List.getLast?_eq_some_getLast hne)
  have hdigits : digits (c :: t) = some (Nat.ofDigitChars 10 (c :: t) 0) := by
    rw [digits, digitValue_of_isDigit hc, Option.bind_some, digitsFrom_decimal ht, Nat.ofDigitChars_cons]
    simp
  have hminus : c ≠ '-' := by
    rintro rfl
    exact absurd hc (by decide)
  have hplus : c ≠ '+' := by
    rintro rfl
    exact absurd hc (by decide)
  unfold intOfString
  rw [hstrip]
  split
  case h_1 ds heq => exact absurd (List.cons.inj heq).1 hminus
  case h_2 ds heq => exact absurd (List.cons.inj heq).1 hplus
  case h_3 =>
    rw [hdigits]
    rfl

end Decimal

theorem ipv4Octets_error {i : Int} {bs : List (List Char)} {e : PyError}
    (h : ipv4Octets i bs = .error e) : e = .valueError := by
  induction bs generalizing i with
  | nil => cases h
  | cons b bs ih =>
    rw [ipv4Octets] at h
    cases hb : intOfString b with
    | ok n =>
      rw [hb] at h
      exact ih h
    | error e' =>
      rw [hb] at h
      obtain rfl : e' = e := Except.error.inj h
      exact intOfString_error hb

theorem ipv4ToInt_error {o : Option String} : ipv4ToInt o ≠ .error .keyError := by
  intro h
  cases o with
  | none => cases h
  | some s =>
    simp only [ipv4ToInt] at h
    split at h
    · cases ipv4Octets_error h
    · cases h

end NshSfc.Python
