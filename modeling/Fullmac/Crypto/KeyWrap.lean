import Fullmac.Crypto.AesInverse
import Fullmac.Lib.Registers

/-!
# Key wrapping

Reference: `host/ap/crypto/aes-wrap.c`, `aes_wrap`; `host/ap/crypto/aes-unwrap.c`, `aes_unwrap`.

The key data of message 3 of the 4-way handshake is wrapped: eight bytes of an initial value are
carried through the data, eight bytes at a time and six times over, and come out in front. The block
that is enciphered is the value and the eight bytes; the number of the step goes into the last byte
of the value only, since `a[7] ^= n * j + i` is arithmetic on bytes.

Unwrapping takes the same way back. So it gives back what was wrapped, and it accepts nothing else
(`aesUnwrap_eq_some_iff`).
-/

namespace Fullmac.Crypto

open Registers

/-- Eight bytes: the value that is carried, or a register. -/
abbrev Half := {l : List UInt8 // l.length = 8}

/-- The register `r` that points to eight bytes of a buffer. -/
def halfAt (buf : List UInt8) (off : ℕ) : Half :=
  ⟨(List.range 8).map fun k => buf.getD (off + k) 0, by rw [List.length_map, List.length_range]⟩

/-- `a[7] ^= t`. -/
def xorByte7 (a : Half) (t : ℕ) : Half :=
  ⟨a.1.modify 7 (· ^^^ UInt8.ofNat t), by rw [List.length_modify, a.2]⟩

/-- The two halves of a block. -/
def splitBlock (b : List UInt8) (h : b.length = 16) : Half × Half :=
  (⟨b.take 8, by rw [List.length_take, h]; rfl⟩, ⟨b.drop 8, by rw [List.length_drop, h]⟩)

/-- One step of `aes_wrap`. -/
def wrapStep (kek : List UInt8) (t : ℕ) (s : Half × Half) : Half × Half :=
  let b := splitBlock (aesEncrypt kek (s.1.1 ++ s.2.1)) (length_aesEncrypt _ _)
  (xorByte7 b.1 t, b.2)

/-- One step of `aes_unwrap`. -/
def unwrapStep (kek : List UInt8) (t : ℕ) (s : Half × Half) : Half × Half :=
  splitBlock (aesDecrypt kek ((xorByte7 s.1 t).1 ++ s.2.1)) (length_aesDecrypt _ _)

/-- The registers of a buffer, from `off` on. -/
def halves (n off : ℕ) (buf : List UInt8) : List Half :=
  (List.range n).map fun i => halfAt buf (off + 8 * i)

/-- The initial value. -/
def initialValue : Half := ⟨List.replicate 8 0xa6, by decide⟩

/-- The bytes of registers. -/
def flatten (rs : List Half) : List UInt8 := rs.flatMap (·.1)

/-- `aes_wrap`. -/
def aesWrap (kek : List UInt8) (n : ℕ) (plain : List UInt8) : List UInt8 :=
  let s := passes (wrapStep kek) 6 1 (initialValue, halves n 0 plain)
  s.1.1 ++ flatten s.2

/-- `aes_unwrap`. -/
def aesUnwrap (kek : List UInt8) (n : ℕ) (cipher : List UInt8) : Option (List UInt8) :=
  let s := passesBack (unwrapStep kek) 6 1 (halfAt cipher 0, halves n 8 cipher)
  if s.1.1.all (· = 0xa6) then some (flatten s.2) else none

/-! ## One step -/

theorem xorByte7_xorByte7 (a : Half) (t : ℕ) : xorByte7 (xorByte7 a t) t = a := by
  have hself : ∀ x : UInt8, x ^^^ UInt8.ofNat t ^^^ UInt8.ofNat t = x := fun x => by
    rw [UInt8.xor_assoc, UInt8.xor_self, UInt8.xor_zero]
  apply Subtype.ext
  show (a.1.modify 7 _).modify 7 _ = a.1
  apply List.ext_getElem (by simp)
  intro i _ _
  rw [List.getElem_modify, List.getElem_modify]
  split
  · exact hself _
  · rfl

/-- The two halves of a block make the block. -/
theorem splitBlock_append {b : List UInt8} (h : b.length = 16) :
    (splitBlock b h).1.1 ++ (splitBlock b h).2.1 = b :=
  List.take_append_drop 8 b

/-- The block of two halves is split into them. -/
theorem splitBlock_of_append {a r : Half} {b : List UInt8} (h : b.length = 16)
    (hb : b = a.1 ++ r.1) : splitBlock b h = (a, r) := by
  subst hb
  apply Prod.ext
  · apply Subtype.ext
    show (a.1 ++ r.1).take 8 = a.1
    rw [List.take_append_of_le_length (by rw [a.2]), List.take_of_length_le (by rw [a.2])]
  · apply Subtype.ext
    show (a.1 ++ r.1).drop 8 = r.1
    rw [List.drop_append_of_le_length (by rw [a.2]), List.drop_of_length_le (by rw [a.2]),
      List.nil_append]

theorem length_append_half (a r : Half) : (a.1 ++ r.1).length = 16 := by
  rw [List.length_append, a.2, r.2]

theorem unwrapStep_wrapStep (kek : List UInt8) (t : ℕ) (s : Half × Half) :
    unwrapStep kek t (wrapStep kek t s) = s := by
  have hblock := splitBlock_append (length_aesEncrypt kek (s.1.1 ++ s.2.1))
  apply splitBlock_of_append
  show aesDecrypt kek ((xorByte7 (xorByte7 _ t) t).1 ++ _) = s.1.1 ++ s.2.1
  rw [xorByte7_xorByte7]
  exact (congrArg (aesDecrypt kek) hblock).trans
    (aesDecrypt_aesEncrypt kek (length_append_half _ _))

theorem wrapStep_unwrapStep (kek : List UInt8) (t : ℕ) (s : Half × Half) :
    wrapStep kek t (unwrapStep kek t s) = s := by
  have hblock : (unwrapStep kek t s).1.1 ++ (unwrapStep kek t s).2.1
      = aesDecrypt kek ((xorByte7 s.1 t).1 ++ s.2.1) := splitBlock_append _
  have hsplit : splitBlock (aesEncrypt kek ((unwrapStep kek t s).1.1 ++ (unwrapStep kek t s).2.1))
      (length_aesEncrypt _ _) = (xorByte7 s.1 t, s.2) := by
    apply splitBlock_of_append
    rw [hblock, aesEncrypt_aesDecrypt kek (length_append_half _ _)]
  rw [wrapStep, hsplit, xorByte7_xorByte7]

/-! ## Registers and bytes -/

@[simp] theorem length_halves (n off : ℕ) (buf : List UInt8) : (halves n off buf).length = n := by
  rw [halves, List.length_map, List.length_range]

@[simp] theorem length_flatten (rs : List Half) : (flatten rs).length = 8 * rs.length := by
  induction rs with
  | nil => rfl
  | cons r rs ih =>
    rw [flatten, List.flatMap_cons, List.length_append, r.2, List.length_cons, ← flatten, ih]
    omega

theorem halves_succ (n off : ℕ) (buf : List UInt8) :
    halves (n + 1) off buf = halfAt buf off :: halves n (off + 8) buf := by
  rw [halves, List.range_succ_eq_map, List.map_cons, List.map_map]
  refine congrArg (halfAt buf off :: ·) (List.map_congr_left fun i _ => ?_)
  show halfAt buf (off + 8 * (i + 1)) = halfAt buf (off + 8 + 8 * i)
  rw [show off + 8 * (i + 1) = off + 8 + 8 * i by omega]

/-- A register that points into registers laid out one behind the other. -/
theorem halfAt_of_append {before after : List UInt8} (r : Half) :
    halfAt (before ++ r.1 ++ after) before.length = r := by
  apply Subtype.ext
  apply List.ext_getElem
  · rw [(halfAt _ _).2, r.2]
  · intro i hi _
    have hi8 : i < 8 := by rwa [(halfAt _ _).2] at hi
    simp only [halfAt, List.getElem_map, List.getElem_range]
    rw [List.getD_eq_getElem?_getD, List.getElem?_append_left (by simp [r.2]; omega),
      List.getElem?_append_right (Nat.le_add_right _ _), Nat.add_sub_cancel_left,
      List.getElem?_eq_getElem, Option.getD_some]

/-- The registers that point into registers laid out one behind the other are these. -/
theorem halves_append_flatten (before : List UInt8) (rs : List Half) :
    halves rs.length before.length (before ++ flatten rs) = rs := by
  induction rs generalizing before with
  | nil => rfl
  | cons r rs ih =>
    have hlen : before.length + 8 = (before ++ r.1).length := by rw [List.length_append, r.2]
    rw [List.length_cons, halves_succ, flatten, List.flatMap_cons, ← flatten, ← List.append_assoc,
      halfAt_of_append, hlen, ih]

theorem flatten_halves {n off : ℕ} {buf : List UInt8} (h : off + 8 * n = buf.length) :
    flatten (halves n off buf) = buf.drop off := by
  induction n generalizing off with
  | zero => rw [List.drop_of_length_le (by omega)]; rfl
  | succ n ih =>
    have hhalf : (halfAt buf off).1 = (buf.drop off).take 8 := by
      apply List.ext_getElem
      · rw [(halfAt _ _).2, List.length_take, List.length_drop]
        omega
      · intro i hi _
        have hi8 : i < 8 := by rwa [(halfAt _ _).2] at hi
        simp only [halfAt, List.getElem_map, List.getElem_range, List.getElem_take,
          List.getElem_drop]
        rw [List.getD_eq_getElem?_getD, List.getElem?_eq_getElem (by omega), Option.getD_some]
    rw [halves_succ, flatten, List.flatMap_cons, ← flatten, ih (by omega), hhalf,
      ← List.drop_drop, List.take_append_drop]

theorem halves_flatten {n : ℕ} {rs : List Half} (h : rs.length = n) :
    halves n 0 (flatten rs) = rs := by
  subst h
  exact halves_append_flatten [] rs

/-- The bytes of a wrapped key are a value and its registers. -/
theorem value_append_flatten {n : ℕ} {cipher : List UInt8} (h : cipher.length = 8 * (n + 1)) :
    (halfAt cipher 0).1 ++ flatten (halves n 8 cipher) = cipher := by
  have hall : flatten (halves (n + 1) 0 cipher) = cipher.drop 0 := flatten_halves (by omega)
  rwa [halves_succ, flatten, List.flatMap_cons, ← flatten, List.drop_zero] at hall

theorem all_eq_true_iff (a : Half) : a.1.all (· = 0xa6) = true ↔ a = initialValue := by
  rw [List.all_eq_true]
  constructor
  · intro h
    exact Subtype.ext (List.eq_replicate_iff.mpr ⟨a.2, fun b hb => by simpa using h b hb⟩)
  · rintro rfl b hb
    simpa using List.eq_of_mem_replicate hb

theorem length_aesWrap (kek : List UInt8) (n : ℕ) (plain : List UInt8) :
    (aesWrap kek n plain).length = 8 * (n + 1) := by
  have hregs := length_passes (f := wrapStep kek) 6 1 (initialValue, halves n 0 plain)
  have hvalue := (passes (wrapStep kek) 6 1 (initialValue, halves n 0 plain)).1.2
  rw [length_halves] at hregs
  rw [aesWrap, List.length_append, length_flatten, hregs, hvalue]
  omega

theorem aesUnwrap_aesWrap (kek : List UInt8) {n : ℕ} {plain : List UInt8}
    (hlen : plain.length = 8 * n) : aesUnwrap kek n (aesWrap kek n plain) = some plain := by
  have hback := passesBack_passes (unwrapStep_wrapStep kek) 6 1 (initialValue, halves n 0 plain)
  have hregs := length_passes (f := wrapStep kek) 6 1 (initialValue, halves n 0 plain)
  rw [aesWrap]
  generalize passes (wrapStep kek) 6 1 (initialValue, halves n 0 plain) = s at *
  rw [length_halves] at hregs
  have hvalue : halfAt (s.1.1 ++ flatten s.2) 0 = s.1 :=
    @halfAt_of_append [] (flatten s.2) s.1
  have hhalves : halves n 8 (s.1.1 ++ flatten s.2) = s.2 := by
    have h := halves_append_flatten s.1.1 s.2
    rwa [hregs, s.1.2] at h
  rw [aesUnwrap, hvalue, hhalves, hback, if_pos ((all_eq_true_iff _).mpr rfl),
    flatten_halves (by omega), List.drop_zero]

/-- Unwrapping accepts exactly what wrapping gives, and gives back what was wrapped: for every key
and every number of registers, whatever the bytes. -/
theorem aesUnwrap_eq_some_iff (kek : List UInt8) (n : ℕ) (plain cipher : List UInt8) :
    cipher.length = 8 * (n + 1) ∧ aesUnwrap kek n cipher = some plain ↔
      plain.length = 8 * n ∧ aesWrap kek n plain = cipher := by
  constructor
  · rintro ⟨hlen, hunwrap⟩
    have hback := passes_passesBack (wrapStep_unwrapStep kek) 6 1
      (halfAt cipher 0, halves n 8 cipher)
    have hregs := length_passesBack (g := unwrapStep kek) 6 1
      (halfAt cipher 0, halves n 8 cipher)
    rw [aesUnwrap] at hunwrap
    generalize passesBack (unwrapStep kek) 6 1 (halfAt cipher 0, halves n 8 cipher) = s at *
    rw [length_halves] at hregs
    split at hunwrap
    case isFalse => cases hunwrap
    case isTrue hiv =>
      obtain rfl := Option.some.inj hunwrap
      refine ⟨by rw [length_flatten, hregs], ?_⟩
      rw [aesWrap, halves_flatten hregs, ← (all_eq_true_iff _).mp hiv, hback]
      exact value_append_flatten hlen
  · rintro ⟨hlen, rfl⟩
    exact ⟨length_aesWrap kek n plain, aesUnwrap_aesWrap kek hlen⟩

end Fullmac.Crypto
