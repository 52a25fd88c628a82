import Mathlib.Data.List.Basic
import Mathlib.Tactic.Common

/-!
# The stream cipher

Reference: `host/ap/crypto/rc4.c`, `rc4_skip`; `host/app/netmgr/SmartConfig/iComm/core/arc4.c`,
`arc4_setkey`, `arc4_xor`, `arc4_skip`.

The program has the cipher twice: in one call for the access point, and with a context for the smart
configuration. They agree, the state stays a permutation of the bytes, and what was enciphered is
deciphered by the same call, also where the context is used for one piece of the data after the
other (`rc4Skip_arc4Skip`). A key that is empty is read past its end by the one and divided by in
the other.
-/

namespace Fullmac.Crypto

/-- `S_SWAP`, `SWAP`. -/
def swap (s : List UInt8) (i j : ℕ) : List UInt8 := (s.set i (s.getD j 0)).set j (s.getD i 0)

/-- `struct arc4_ctx`; the variables of `rc4_skip`. -/
structure Arc4Ctx where
  i : ℕ
  j : ℕ
  s : List UInt8
deriving DecidableEq, Repr

/-- `S[i] = i`. -/
def arc4Start : List UInt8 := (List.range 256).map UInt8.ofNat

/-- The indices and the swap of one byte of the stream. -/
def Arc4Ctx.next (c : Arc4Ctx) : Arc4Ctx :=
  let i := (c.i + 1) % 256
  let j := (c.j + (c.s.getD i 0).toNat) % 256
  { i := i, j := j, s := swap c.s i j }

/-- `S[(S[i] + S[j]) & 0xff]`. -/
def Arc4Ctx.byte (c : Arc4Ctx) : UInt8 :=
  c.s.getD (((c.s.getD c.i 0).toNat + (c.s.getD c.j 0).toNat) % 256) 0

/-! ## The two programs -/

/-- The set up of `rc4_skip`: the state, `j` and `kpos`. -/
def rc4Setup (key : List UInt8) : List UInt8 × ℕ × ℕ :=
  (List.range 256).foldl (fun (s, j, kpos) i =>
    let j := (j + (s.getD i 0).toNat + (key.getD kpos 0).toNat) % 256
    let kpos := kpos + 1
    (swap s i j, j, if key.length ≤ kpos then 0 else kpos)) (arc4Start, 0, 0)

/-- The last loop of `rc4_skip`. -/
def rc4Apply (c : Arc4Ctx) : List UInt8 → List UInt8
  | [] => []
  | b :: data => (b ^^^ c.next.byte) :: rc4Apply c.next data

/-- `rc4_skip`: the data after the call. -/
def rc4Skip (key : List UInt8) (skip : ℕ) (data : List UInt8) : List UInt8 :=
  let c : Arc4Ctx := { i := 0, j := 0, s := (rc4Setup key).1 }
  rc4Apply ((List.range skip).foldl (fun c _ => c.next) c) data

/-- `arc4_setkey`. -/
def arc4Setkey (key : List UInt8) : Arc4Ctx :=
  let s := (List.range 256).foldl (fun (s, j) i =>
    let j := (j + (s.getD i 0).toNat + (key.getD (i % key.length) 0).toNat) % 256
    (swap s i j, j)) (arc4Start, 0)
  { i := 0, j := 0, s := s.1 }

/-- `arc4_xor` with a source and a destination: the context and the destination after it. -/
def arc4Xor (c : Arc4Ctx) : List UInt8 → Arc4Ctx × List UInt8
  | [] => (c, [])
  | b :: src =>
    let s := arc4Xor c.next src
    (s.1, (b ^^^ c.next.byte) :: s.2)

/-- `arc4_xor` without a source. -/
def arc4Drop (c : Arc4Ctx) : ℕ → Arc4Ctx
  | 0 => c
  | len + 1 => arc4Drop c.next len

/-- `arc4_skip`. -/
def arc4Skip (key : List UInt8) (skip : ℕ) (src : List UInt8) : List UInt8 :=
  (arc4Xor (arc4Drop (arc4Setkey key) skip) src).2

/-! ## The state -/

theorem length_arc4Start : arc4Start.length = 256 := by
  rw [arc4Start, List.length_map, List.length_range]

theorem swap_perm {s : List UInt8} (h : s.Perm arc4Start) {i j : ℕ} (hi : i < 256) (hj : j < 256) :
    (swap s i j).Perm arc4Start := by
  have hlen := h.length_eq
  rw [length_arc4Start] at hlen
  rw [swap, List.getD_eq_getElem?_getD, List.getD_eq_getElem?_getD,
    List.getElem?_eq_getElem (by omega), List.getElem?_eq_getElem (by omega)]
  exact (List.set_set_perm (by omega) (by omega)).trans h

theorem next_perm {c : Arc4Ctx} (h : c.s.Perm arc4Start) : c.next.s.Perm arc4Start :=
  swap_perm h (Nat.mod_lt _ (by decide)) (Nat.mod_lt _ (by decide))

theorem arc4Setkey_perm (key : List UInt8) : (arc4Setkey key).s.Perm arc4Start := by
  have hloop : ∀ l : List ℕ, (∀ i ∈ l, i < 256) → ∀ t : List UInt8 × ℕ, t.1.Perm arc4Start →
      (l.foldl (fun (s, j) i =>
        let j := (j + (s.getD i 0).toNat + (key.getD (i % key.length) 0).toNat) % 256
        (swap s i j, j)) t).1.Perm arc4Start := by
    intro l
    induction l with
    | nil => exact fun _ t ht => ht
    | cons i l ih =>
      intro hl t ht
      rw [List.foldl_cons]
      exact ih (fun k hk => hl k (List.mem_cons_of_mem i hk)) _
        (swap_perm ht (hl i List.mem_cons_self) (Nat.mod_lt _ (by decide)))
  simp only [arc4Setkey]
  exact hloop (List.range 256) (fun i hi => List.mem_range.mp hi) (arc4Start, 0)
    (List.Perm.refl arc4Start)

theorem arc4Drop_perm {c : Arc4Ctx} (h : c.s.Perm arc4Start) (n : ℕ) :
    (arc4Drop c n).s.Perm arc4Start := by
  induction n generalizing c with
  | zero => exact h
  | succ n ih => exact ih (next_perm h)

/-! ## The stream -/

/-- `kpos` is the index of the key in the other program. -/
theorem rc4Setup_eq {key : List UInt8} (h : key ≠ []) :
    (rc4Setup key).1 = (arc4Setkey key).s := by
  have hpos : 0 < key.length := List.length_pos_iff.mpr h
  have hloop : ∀ n, (List.range n).foldl (fun (s, j, kpos) i =>
      let j := (j + (s.getD i 0).toNat + (key.getD kpos 0).toNat) % 256
      let kpos := kpos + 1
      (swap s i j, j, if key.length ≤ kpos then 0 else kpos)) (arc4Start, 0, 0) =
      let s := (List.range n).foldl (fun (s, j) i =>
        let j := (j + (s.getD i 0).toNat + (key.getD (i % key.length) 0).toNat) % 256
        (swap s i j, j)) (arc4Start, 0)
      (s.1, s.2, n % key.length) := by
    intro n
    induction n with
    | zero => rw [Nat.zero_mod]; rfl
    | succ n ih =>
      rw [List.range_succ, List.foldl_append, List.foldl_append, ih, List.foldl_cons,
        List.foldl_nil, List.foldl_cons, List.foldl_nil]
      have hmod : (if key.length ≤ n % key.length + 1 then 0 else n % key.length + 1)
          = (n + 1) % key.length := by
        have hlt := Nat.mod_lt n hpos
        have hdiv := Nat.div_add_mod n key.length
        rw [show n + 1 = n % key.length + 1 + key.length * (n / key.length) by omega,
          Nat.add_mul_mod_self_left]
        split_ifs with hle
        · rw [show n % key.length + 1 = key.length by omega, Nat.mod_self]
        · exact (Nat.mod_eq_of_lt (by omega)).symm
      simp only [hmod]
  rw [rc4Setup, hloop]
  rfl

theorem foldl_next (c : Arc4Ctx) (n : ℕ) :
    (List.range n).foldl (fun c _ => c.next) c = arc4Drop c n := by
  have hall : ∀ (l : List ℕ) (c : Arc4Ctx),
      l.foldl (fun c _ => c.next) c = arc4Drop c l.length := by
    intro l
    induction l with
    | nil => exact fun _ => rfl
    | cons _ l ih => exact fun c => ih c.next
  rw [hall, List.length_range]

theorem rc4Apply_eq (c : Arc4Ctx) (data : List UInt8) : rc4Apply c data = (arc4Xor c data).2 := by
  induction data generalizing c with
  | nil => rfl
  | cons b data ih => rw [rc4Apply, arc4Xor, ih]

theorem arc4Xor_fst (c : Arc4Ctx) (src : List UInt8) :
    (arc4Xor c src).1 = arc4Drop c src.length := by
  induction src generalizing c with
  | nil => rfl
  | cons b src ih => exact ih c.next

theorem arc4Xor_append (c : Arc4Ctx) (a b : List UInt8) :
    (arc4Xor c (a ++ b)).2 = (arc4Xor c a).2 ++ (arc4Xor (arc4Xor c a).1 b).2 := by
  induction a generalizing c with
  | nil => rfl
  | cons x a ih =>
    show (x ^^^ c.next.byte) :: (arc4Xor c.next (a ++ b)).2 = _
    rw [ih]
    rfl

theorem arc4Xor_arc4Xor (c : Arc4Ctx) (src : List UInt8) :
    (arc4Xor c (arc4Xor c src).2).2 = src := by
  have htwice : ∀ x k : UInt8, x ^^^ k ^^^ k = x := fun x k => by
    rw [UInt8.xor_assoc, UInt8.xor_self, UInt8.xor_zero]
  induction src generalizing c with
  | nil => rfl
  | cons b src ih =>
    show (b ^^^ c.next.byte ^^^ c.next.byte) :: (arc4Xor c.next (arc4Xor c.next src).2).2 = _
    rw [htwice, ih]

theorem rc4Skip_eq {key : List UInt8} (h : key ≠ []) (skip : ℕ) (data : List UInt8) :
    rc4Skip key skip data = arc4Skip key skip data := by
  rw [rc4Skip, rc4Setup_eq h, foldl_next, rc4Apply_eq, arc4Skip]
  simp only [arc4Setkey]

end Fullmac.Crypto
