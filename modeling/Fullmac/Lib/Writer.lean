import Fullmac.Lib.Bytes

/-!
# Writing at a cursor

Code that builds a message holds a pointer to the place where the next byte goes, and hands it on
from one part of the message to the next. Whatever such code does, it has written a list of bytes
(`Cursor.write`) if each part has: lists written one behind the other are one list (`write_write`),
bytes that are left out are the bytes that were there (`advance_eq_write`), and a byte filled in
later replaces the one at its place (`poke_write`).
-/

namespace Fullmac.Writer

open Bytes

/-- A memory, and where the next byte goes. -/
structure Cursor where
  mem : Mem
  pos : ℕ

namespace Cursor

/-- A memory of zeros, and the pointer at its start. -/
def blank : Cursor := ⟨fun _ => 0, 0⟩

/-- `memcpy`, and the pointer moves behind what was copied. -/
def write (c : Cursor) (bs : List UInt8) : Cursor := ⟨copy c.mem c.pos bs, c.pos + bs.length⟩

/-- `*pos++ = b`. -/
def put (c : Cursor) (b : UInt8) : Cursor := c.write [b]

/-- `pos += n`. -/
def advance (c : Cursor) (n : ℕ) : Cursor := { c with pos := c.pos + n }

/-- A byte is filled in at an address; the pointer stays. -/
def poke (c : Cursor) (off : ℕ) (b : UInt8) : Cursor := { c with mem := copy c.mem off [b] }

variable (c : Cursor) (b : UInt8) (bs bs' : List UInt8)

@[simp] theorem write_pos : (c.write bs).pos = c.pos + bs.length := rfl

@[simp] theorem write_mem : (c.write bs).mem = copy c.mem c.pos bs := rfl

@[simp] theorem poke_pos (off : ℕ) : (c.poke off b).pos = c.pos := rfl

@[simp] theorem put_eq_write : c.put b = c.write [b] := rfl

@[simp] theorem write_nil : c.write [] = c := by
  have hmem : copy c.mem c.pos [] = c.mem := by
    funext i
    simp [copy]
  rw [write, hmem, List.length_nil, Nat.add_zero]

@[simp] theorem write_write : (c.write bs).write bs' = c.write (bs ++ bs') := by
  rw [write, write_mem, write_pos, copy_append, write, List.length_append, Nat.add_assoc]

theorem advance_eq_write (n : ℕ) : c.advance n = c.write (slice c.mem c.pos n) := by
  have hmem : copy c.mem c.pos (slice c.mem c.pos n) = c.mem := by
    funext i
    by_cases hi : c.pos ≤ i ∧ i < c.pos + n
    · obtain ⟨k, rfl⟩ := Nat.exists_eq_add_of_le hi.1
      rw [copy_getElem (by rw [length_slice]; omega)]
      simp [slice]
    · exact copy_of_outside (by rw [length_slice]; omega)
  rw [write, hmem, length_slice]
  rfl

/-- The copy and the new place of the pointer may be computed apart. -/
theorem write_of_length {n : ℕ} (h : bs.length = n) :
    (⟨copy c.mem c.pos bs, c.pos + n⟩ : Cursor) = c.write bs := by
  rw [← h]
  rfl

/-- What a write leaves in the memory. -/
theorem write_getElem {i : ℕ} (h : i < bs.length) : (c.write bs).mem (c.pos + i) = bs[i] :=
  copy_getElem h

theorem poke_write {i : ℕ} (h : i < bs.length) :
    (c.write bs).poke (c.pos + i) b = c.write (bs.set i b) := by
  have hmem : copy (copy c.mem c.pos bs) (c.pos + i) [b] = copy c.mem c.pos (bs.set i b) := by
    funext k
    by_cases hk : c.pos ≤ k ∧ k < c.pos + bs.length
    · obtain ⟨j, rfl⟩ := Nat.exists_eq_add_of_le hk.1
      have hj : j < bs.length := by omega
      rw [copy_getElem (by rwa [List.length_set])]
      by_cases hji : j = i
      · subst hji
        rw [List.getElem_set_self]
        simp [copy]
      · rw [List.getElem_set_ne (Ne.symm hji),
          copy_of_outside (by rw [List.length_singleton]; omega), copy_getElem hj]
    · rw [copy_of_outside (by rw [List.length_singleton]; omega), copy_of_outside (by omega),
        copy_of_outside (by rw [List.length_set]; omega)]
  show (⟨copy (copy c.mem c.pos bs) (c.pos + i) [b], c.pos + bs.length⟩ : Cursor) =
    ⟨copy c.mem c.pos (bs.set i b), c.pos + (bs.set i b).length⟩
  rw [hmem, List.length_set]

end Cursor

/-! ## Information elements -/

/-- Between two positions of the pointer lies one information element: the octet behind its
identifier is the number of the octets that follow. -/
def IsElement (c c' : Cursor) : Prop := c'.pos = c.pos + 2 + (c'.mem (c.pos + 1)).toNat

theorem isElement_write (c : Cursor) (id len : UInt8) (body : List UInt8) :
    IsElement c (c.write (id :: len :: body)) ↔ len.toNat = body.length := by
  have hlen : (c.write (id :: len :: body)).mem (c.pos + 1) = len :=
    c.write_getElem (i := 1) _ (by simp)
  rw [IsElement, hlen, Cursor.write_pos, List.length_cons, List.length_cons]
  omega

/-- The octets of an element behind its identifier and its length; none if there is no element. -/
def body (c c' : Cursor) : List UInt8 := slice c'.mem (c.pos + 2) (c'.pos - (c.pos + 2))

theorem body_write (c : Cursor) (id len : UInt8) (bs : List UInt8) :
    body c (c.write (id :: len :: bs)) = bs := by
  have hmem : (c.write (id :: len :: bs)).mem = copy (copy c.mem c.pos [id, len]) (c.pos + 2) bs :=
    (copy_append c.mem c.pos [id, len] bs).symm
  have hlen : (c.write (id :: len :: bs)).pos - (c.pos + 2) = bs.length := by
    rw [Cursor.write_pos, List.length_cons, List.length_cons]
    omega
  rw [body, hmem, hlen, slice_copy_self]

theorem body_self (c : Cursor) : body c c = [] := by
  rw [body, Nat.sub_eq_zero_of_le (Nat.le_add_right _ _)]
  rfl

end Fullmac.Writer
