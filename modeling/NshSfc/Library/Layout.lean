import Mathlib.Algebra.Order.Ring.Nat
import Mathlib.Data.List.Basic
import Mathlib.Tactic.Ring.RingNF

namespace NshSfc.Library

def fromBytes : List UInt8 → ℕ
  | [] => 0
  | b :: bs => b.toNat * 256 ^ bs.length + fromBytes bs

def toBytes : ℕ → ℕ → List UInt8
  | 0, _ => []
  | w + 1, n => UInt8.ofNat (n / 256 ^ w) :: toBytes w n

section Bytes

variable {w n : ℕ}

@[simp] theorem length_toBytes (w n : ℕ) : (toBytes w n).length = w := by
  induction w with
  | zero => rfl
  | succ w ih => rw [toBytes, List.length_cons, ih]

theorem fromBytes_toBytes (w n : ℕ) : fromBytes (toBytes w n) = n % 256 ^ w := by
  induction w with
  | zero => rw [pow_zero, Nat.mod_one, toBytes, fromBytes]
  | succ w ih =>
    have hbyte : (UInt8.ofNat (n / 256 ^ w)).toNat = n / 256 ^ w % 256 := by simp
    rw [toBytes, fromBytes, length_toBytes, ih, hbyte, pow_succ, Nat.mod_mul]
    ring

theorem fromBytes_lt (bs : List UInt8) : fromBytes bs < 256 ^ bs.length := by
  induction bs with
  | nil => rw [fromBytes, List.length_nil, pow_zero]; exact Nat.one_pos
  | cons b bs ih =>
    have hb : (b.toNat + 1) * 256 ^ bs.length ≤ 256 * 256 ^ bs.length :=
      Nat.mul_le_mul_right _ b.toNat_lt
    rw [fromBytes, List.length_cons, pow_succ]
    rw [Nat.add_mul] at hb
    omega

theorem fromBytes_zeros (n : ℕ) : fromBytes (List.replicate n 0) = 0 := by
  induction n with
  | zero => rfl
  | succ n ih => rw [List.replicate_succ, fromBytes, ih, UInt8.toNat_zero, Nat.zero_mul]

theorem toBytes_add (w a n : ℕ) : toBytes w (a * 256 ^ w + n) = toBytes w n := by
  induction w generalizing a with
  | zero => rfl
  | succ w ih =>
    have hsplit : a * 256 ^ (w + 1) + n = n + 256 ^ w * (256 * a) := by
      rw [pow_succ]
      ring
    have hrest : a * 256 ^ (w + 1) + n = a * 256 * 256 ^ w + n := by
      rw [hsplit]
      ring
    have hbyte : UInt8.ofNat ((a * 256 ^ (w + 1) + n) / 256 ^ w) = UInt8.ofNat (n / 256 ^ w) := by
      rw [hsplit, Nat.add_mul_div_left _ _ (Nat.pow_pos (by decide))]
      apply UInt8.toNat_inj.mp
      simp
    rw [toBytes, toBytes, hbyte, hrest, ih]

theorem toBytes_fromBytes (bs : List UInt8) : toBytes bs.length (fromBytes bs) = bs := by
  induction bs with
  | nil => rfl
  | cons b bs ih =>
    have hdiv : fromBytes (b :: bs) / 256 ^ bs.length = b.toNat := by
      rw [fromBytes, Nat.add_comm, Nat.add_mul_div_right, Nat.div_eq_of_lt (fromBytes_lt bs),
        Nat.zero_add]
      exact Nat.pow_pos (by decide)
    rw [List.length_cons, toBytes, hdiv, UInt8.ofNat_toNat, fromBytes, toBytes_add, ih]

end Bytes

/-- The number whose bits are those of the values, each in its width, the first one leftmost. -/
def pack : List (ℕ × ℕ) → ℕ
  | [] => 0
  | f :: fs => f.2 * 2 ^ (fs.map Prod.fst).sum + pack fs

def unpack : List ℕ → ℕ → List ℕ
  | [], _ => []
  | w :: ws, n => n / 2 ^ ws.sum % 2 ^ w :: unpack ws n

section Fields

variable {fs : List (ℕ × ℕ)} {ws : List ℕ}

theorem pack_lt (h : ∀ f ∈ fs, f.2 < 2 ^ f.1) : pack fs < 2 ^ (fs.map Prod.fst).sum := by
  induction fs with
  | nil => exact Nat.one_pos
  | cons f fs ih =>
    obtain ⟨hf, hfs⟩ := List.forall_mem_cons.mp h
    have hle : (f.2 + 1) * 2 ^ (fs.map Prod.fst).sum ≤ 2 ^ f.1 * 2 ^ (fs.map Prod.fst).sum :=
      Nat.mul_le_mul_right _ hf
    have hlt := ih hfs
    rw [pack, List.map_cons, List.sum_cons, pow_add]
    rw [Nat.add_mul] at hle
    omega

theorem unpack_add (ws : List ℕ) (a n : ℕ) : unpack ws (a * 2 ^ ws.sum + n) = unpack ws n := by
  induction ws generalizing a with
  | nil => rfl
  | cons w ws ih =>
    have hsplit : a * 2 ^ (w :: ws).sum + n = n + 2 ^ ws.sum * (2 ^ w * a) := by
      rw [List.sum_cons, pow_add]
      ring
    have hrest : a * 2 ^ (w :: ws).sum + n = a * 2 ^ w * 2 ^ ws.sum + n := by
      rw [hsplit]
      ring
    rw [unpack, unpack, hsplit, Nat.add_mul_div_left _ _ (Nat.two_pow_pos _), Nat.add_mul_mod_self_left,
      ← hsplit, hrest, ih]

theorem unpack_pack (h : ∀ f ∈ fs, f.2 < 2 ^ f.1) :
    unpack (fs.map Prod.fst) (pack fs) = fs.map Prod.snd := by
  induction fs with
  | nil => rfl
  | cons f fs ih =>
    obtain ⟨hf, hfs⟩ := List.forall_mem_cons.mp h
    have hdiv : pack (f :: fs) / 2 ^ (fs.map Prod.fst).sum = f.2 := by
      rw [pack, Nat.add_comm, Nat.add_mul_div_right, Nat.div_eq_of_lt (pack_lt hfs), Nat.zero_add]
      exact Nat.two_pow_pos _
    rw [List.map_cons, unpack, hdiv, Nat.mod_eq_of_lt hf, pack, unpack_add, ih hfs, List.map_cons]

end Fields

end NshSfc.Library
