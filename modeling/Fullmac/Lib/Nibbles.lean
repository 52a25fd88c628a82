import Fullmac.Lib.Bytes
import Mathlib.Algebra.Group.Nat.Defs

/-!
# Nibbles of a byte memory

A byte memory read in steps of four bits, the lower half of a byte before the upper. `nibble m p` is
the `p`-th of them, `pair m p` the byte that begins there, wherever that is within the bytes of the
memory, and `Spells m p ns` says that the nibbles from `p` on are `ns`.
-/

namespace Fullmac.Bytes

/-- The four bits at nibble `p`. -/
def nibble (m : Mem) (p : ℕ) : ℕ := (m (p / 2)).toNat / 16 ^ (p % 2) % 16

/-- The eight bits from nibble `p` on. -/
def pair (m : Mem) (p : ℕ) : ℕ := nibble m p + 16 * nibble m (p + 1)

/-- The nibbles from `p` on are `ns`. -/
def Spells (m : Mem) : ℕ → List ℕ → Prop
  | _, [] => True
  | p, n :: ns => nibble m p = n ∧ Spells m (p + 1) ns

/-- The lowest `n` nibbles of a number. -/
def leNibbles : ℕ → ℕ → List ℕ
  | 0, _ => []
  | n + 1, v => v % 16 :: leNibbles n (v / 16)

variable {m : Mem} {p : ℕ}

@[simp] theorem nibble_two_mul (m : Mem) (k : ℕ) : nibble m (2 * k) = (m k).toNat % 16 := by
  rw [nibble, Nat.mul_div_cancel_left k (by decide), Nat.mul_mod_right, Nat.pow_zero, Nat.div_one]

@[simp] theorem nibble_two_mul_add_one (m : Mem) (k : ℕ) :
    nibble m (2 * k + 1) = (m k).toNat / 16 := by
  have hlt := (m k).toNat_lt
  have hdiv : (2 * k + 1) / 2 = k := by omega
  have hmod : (2 * k + 1) % 2 = 1 := by omega
  rw [nibble, hdiv, hmod, Nat.pow_one]
  omega

/-- The nibble as the half of a byte that is shifted down. -/
theorem shiftRight_and_eq_nibble (m : Mem) (p : ℕ) :
    ((m (p / 2)).toNat >>> (4 * (p % 2))) &&& 15 = nibble m p := by
  rw [Nat.and_two_pow_sub_one_eq_mod _ 4, Nat.shiftRight_eq_div_pow, Nat.pow_mul, nibble]

/-- A byte of the memory. -/
theorem pair_two_mul (m : Mem) (k : ℕ) : pair m (2 * k) = (m k).toNat := by
  rw [pair, nibble_two_mul, nibble_two_mul_add_one]
  omega

/-- A byte made of halves of two. -/
theorem pair_two_mul_add_one (m : Mem) (k : ℕ) :
    pair m (2 * k + 1) = (m k).toNat / 16 + 16 * ((m (k + 1)).toNat % 16) := by
  have hnext : 2 * k + 1 + 1 = 2 * (k + 1) := by omega
  rw [pair, nibble_two_mul_add_one, hnext, nibble_two_mul]

/-- A byte put together from halves of two. -/
theorem or_halves (b b' : UInt8) :
    ((b' <<< 4) &&& (0xF0 : UInt8)) ||| ((b >>> 4) &&& (0x0F : UInt8))
      = UInt8.ofNat (b.toNat / 16 + 16 * (b'.toNat % 16)) := by
  have hlt := b.toNat_lt
  have hup : b'.toNat <<< 4 % 256 &&& 240 = (b'.toNat % 16) <<< 4 := by
    have hcut : b'.toNat <<< 4 % 256 = (b'.toNat % 16) <<< 4 := by
      rw [Nat.shiftLeft_eq, Nat.shiftLeft_eq]
      omega
    have hmask : b'.toNat % 16 &&& 15 = b'.toNat % 16 := by
      rw [Nat.and_two_pow_sub_one_eq_mod _ 4, Nat.mod_mod]
    rw [hcut, show 240 = 15 <<< 4 from rfl, ← Nat.shiftLeft_and_distrib, hmask]
  have hdown : b.toNat >>> 4 &&& 15 = b.toNat / 16 := by
    rw [Nat.and_two_pow_sub_one_eq_mod _ 4, Nat.shiftRight_eq_div_pow]
    omega
  have hor : (b'.toNat % 16) <<< 4 ||| b.toNat / 16 = b.toNat / 16 + 16 * (b'.toNat % 16) := by
    rw [← Nat.shiftLeft_add_eq_or_of_lt (by omega), Nat.shiftLeft_eq]
    omega
  have hbyte : b.toNat / 16 + 16 * (b'.toNat % 16) < 256 := by omega
  apply UInt8.toNat_inj.mp
  rw [UInt8.toNat_or, UInt8.toNat_and, UInt8.toNat_and, UInt8.toNat_shiftLeft,
    UInt8.toNat_shiftRight, UInt8.toNat_ofNat', Nat.mod_eq_of_lt hbyte, ← hor, ← hup, ← hdown]
  rfl

@[simp] theorem length_leNibbles (n v : ℕ) : (leNibbles n v).length = n := by
  induction n generalizing v with
  | zero => rfl
  | succ n ih => rw [leNibbles, List.length_cons, ih]

theorem spells_append {ns ns' : List ℕ} :
    Spells m p (ns ++ ns') ↔ Spells m p ns ∧ Spells m (p + ns.length) ns' := by
  induction ns generalizing p with
  | nil => simp [Spells]
  | cons n ns ih =>
    rw [List.cons_append, Spells, ih, Spells, and_assoc, List.length_cons, Nat.add_right_comm,
      Nat.add_assoc]

/-- The bytes of a number are read back. -/
theorem pair_of_spells {n v : ℕ} (h : Spells m p (leNibbles (2 * n) v)) {i : ℕ} (hi : i < n) :
    pair m (p + 2 * i) = v / 256 ^ i % 256 := by
  induction n generalizing p v i with
  | zero => omega
  | succ n ih =>
    obtain ⟨h0, h1, hrest⟩ := h
    cases i with
    | zero =>
      rw [Nat.mul_zero, Nat.add_zero, pair, h0, h1]
      omega
    | succ i =>
      have hstep := ih hrest (Nat.lt_of_succ_lt_succ hi)
      rw [Nat.div_div_eq_div_mul, Nat.div_div_eq_div_mul, ← Nat.mul_assoc] at hstep
      rw [Nat.pow_succ', ← hstep]
      congr 1
      omega

end Fullmac.Bytes
