import Mathlib.Data.List.Basic
import Mathlib.Data.Nat.Basic
import Mathlib.Tactic.Common

/-!
# Byte memories

A memory is a function from addresses to bytes, `copy` writes a list of bytes at an address and
`slice` reads one. Whatever is laid out in a memory is read back by three kinds of facts: what a
write leaves at its own place (`slice_copy_self`, `getU16_setU16`), what it leaves elsewhere
(`copy_of_outside`), and that a read looks at its own bytes only (`slice_congr`, `getU16_congr`).
-/

namespace Fullmac.Bytes

/-- The contents of a memory. -/
abbrev Mem := ℕ → UInt8

/-- Write `bs` at `off`. -/
def copy (m : Mem) (off : ℕ) (bs : List UInt8) : Mem :=
  fun i => if off ≤ i then (bs[i - off]?).getD (m i) else m i

/-- Read `len` bytes at `off`. -/
def slice (m : Mem) (off len : ℕ) : List UInt8 := (List.range len).map fun i => m (off + i)

/-- A little-endian 16-bit field. -/
def getU16 (m : Mem) (off : ℕ) : ℕ := (m off).toNat + 256 * (m (off + 1)).toNat

/-- Write a little-endian 16-bit field; higher bits of the value are lost. -/
def setU16 (m : Mem) (off v : ℕ) : Mem := copy m off [UInt8.ofNat v, UInt8.ofNat (v / 256)]

/-- The bytes of a little-endian 32-bit word. -/
def le32 (v : ℕ) : List UInt8 :=
  [UInt8.ofNat v, UInt8.ofNat (v / 256), UInt8.ofNat (v / 65536), UInt8.ofNat (v / 16777216)]

/-- A little-endian 32-bit word. -/
def getU32 (m : Mem) (off : ℕ) : ℕ :=
  (m off).toNat + 256 * (m (off + 1)).toNat + 65536 * (m (off + 2)).toNat
    + 16777216 * (m (off + 3)).toNat

/-- Write a little-endian 32-bit word. -/
def setU32 (m : Mem) (off v : ℕ) : Mem := copy m off (le32 v)

/-! ## Elsewhere -/

theorem copy_of_outside {m : Mem} {off i : ℕ} {bs : List UInt8}
    (h : i < off ∨ off + bs.length ≤ i) : copy m off bs i = m i := by
  rw [copy]
  split
  · rw [List.getElem?_eq_none (by omega), Option.getD_none]
  · rfl

theorem setU16_of_outside {m : Mem} {off v i : ℕ} (h : i < off ∨ off + 2 ≤ i) :
    setU16 m off v i = m i :=
  copy_of_outside h

/-- The same bytes at two places. -/
theorem slice_of_bytes {m m' : Mem} {off off' len : ℕ}
    (h : ∀ i < len, m' (off' + i) = m (off + i)) : slice m' off' len = slice m off len :=
  List.map_congr_left fun i hi => h i (List.mem_range.mp hi)

theorem slice_congr {m m' : Mem} {off len : ℕ} (h : ∀ i < len, m' (off + i) = m (off + i)) :
    slice m' off len = slice m off len :=
  slice_of_bytes h

theorem getU16_congr {m m' : Mem} {off : ℕ} (h0 : m' off = m off)
    (h1 : m' (off + 1) = m (off + 1)) : getU16 m' off = getU16 m off := by
  rw [getU16, getU16, h0, h1]

/-- The same bytes at two places make the same word. -/
theorem getU32_of_bytes {m m' : Mem} {off off' : ℕ} (h : ∀ i < 4, m' (off' + i) = m (off + i)) :
    getU32 m' off' = getU32 m off := by
  have h0 := h 0 (by omega)
  rw [Nat.add_zero, Nat.add_zero] at h0
  rw [getU32, getU32, h0, h 1 (by omega), h 2 (by omega), h 3 (by omega)]

theorem getU32_congr {m m' : Mem} {off : ℕ} (h : ∀ i < 4, m' (off + i) = m (off + i)) :
    getU32 m' off = getU32 m off :=
  getU32_of_bytes h

/-! ## At its own place -/

theorem copy_getElem {m : Mem} {off i : ℕ} {bs : List UInt8} (h : i < bs.length) :
    copy m off bs (off + i) = bs[i] := by
  rw [copy, if_pos (Nat.le_add_right off i), Nat.add_sub_cancel_left, List.getElem?_eq_getElem h,
    Option.getD_some]

@[simp] theorem length_slice (m : Mem) (off len : ℕ) : (slice m off len).length = len := by
  simp [slice]

theorem slice_copy_self (m : Mem) (off : ℕ) (bs : List UInt8) :
    slice (copy m off bs) off bs.length = bs := by
  apply List.ext_getElem (by simp)
  intro i _ hi
  simp only [slice, List.getElem_map, List.getElem_range]
  exact copy_getElem hi

theorem slice_append (m : Mem) (off len len' : ℕ) :
    slice m off (len + len') = slice m off len ++ slice m (off + len) len' := by
  simp only [slice, List.range_add, List.map_append, List.map_map, Function.comp_def,
    Nat.add_assoc]

/-- Two lists read one behind the other. -/
theorem slice_split {m : Mem} {off : ℕ} {bs bs' : List UInt8}
    (h : slice m off (bs ++ bs').length = bs ++ bs') :
    slice m off bs.length = bs ∧ slice m (off + bs.length) bs'.length = bs' := by
  rw [List.length_append, slice_append] at h
  exact List.append_inj h (length_slice _ _ _)

theorem slice_succ (m : Mem) (off len : ℕ) :
    slice m off (len + 1) = m off :: slice m (off + 1) len := by
  have hone : slice m off 1 = [m off] := by simp [slice]
  rw [Nat.add_comm len 1, slice_append, hone, List.singleton_append]

theorem getU16_of_slice {m : Mem} {off : ℕ} {a b : UInt8} (h : slice m off 2 = [a, b]) :
    getU16 m off = a.toNat + 256 * b.toNat := by
  rw [slice_succ, slice_succ] at h
  obtain ⟨ha, h⟩ := List.cons.inj h
  rw [getU16, ha, (List.cons.inj h).1]

theorem getU16_lt (m : Mem) (off : ℕ) : getU16 m off < 65536 := by
  have h0 := (m off).toNat_lt
  have h1 := (m (off + 1)).toNat_lt
  rw [getU16]
  omega

theorem getU16_setU16 (m : Mem) (off v : ℕ) : getU16 (setU16 m off v) off = v % 65536 := by
  have h0 : setU16 m off v off = UInt8.ofNat v :=
    copy_getElem (i := 0) (by simp)
  have h1 : setU16 m off v (off + 1) = UInt8.ofNat (v / 256) :=
    copy_getElem (i := 1) (by simp)
  rw [getU16, h0, h1, UInt8.toNat_ofNat', UInt8.toNat_ofNat']
  omega

theorem getU32_setU32 (m : Mem) (off v : ℕ) : getU32 (setU32 m off v) off = v % 4294967296 := by
  have h0 : setU32 m off v off = UInt8.ofNat v := copy_getElem (i := 0) (by simp [le32])
  have h1 : setU32 m off v (off + 1) = UInt8.ofNat (v / 256) :=
    copy_getElem (i := 1) (by simp [le32])
  have h2 : setU32 m off v (off + 2) = UInt8.ofNat (v / 65536) :=
    copy_getElem (i := 2) (by simp [le32])
  have h3 : setU32 m off v (off + 3) = UInt8.ofNat (v / 16777216) :=
    copy_getElem (i := 3) (by simp [le32])
  rw [getU32, h0, h1, h2, h3]
  simp only [UInt8.toNat_ofNat']
  omega

theorem getU32_of_le32 {m : Mem} {off v : ℕ} (h : slice m off 4 = le32 v) (hv : v < 4294967296) :
    getU32 m off = v := by
  have hsame : ∀ i < 4, m (off + i) = setU32 m off v (off + i) := by
    intro i hi
    have hcopy : slice (setU32 m off v) off 4 = le32 v := slice_copy_self m off (le32 v)
    have heq := congrArg (·[i]?) (h.trans hcopy.symm)
    simpa [slice, hi] using heq
  rw [getU32_congr hsame, getU32_setU32, Nat.mod_eq_of_lt hv]

/-- Bytes of another memory, copied to where they stood there. -/
theorem copy_slice (m old : Mem) (off len i : ℕ) :
    copy m off (slice old off len) i = if off ≤ i ∧ i < off + len then old i else m i := by
  by_cases hi : off ≤ i ∧ i < off + len
  · obtain ⟨k, rfl⟩ : ∃ k, i = off + k := ⟨i - off, by omega⟩
    have hk : k < (slice old off len).length := by
      rw [length_slice]
      omega
    rw [if_pos hi, copy_getElem hk]
    simp only [slice, List.getElem_map, List.getElem_range]
  · rw [if_neg hi, copy_of_outside (by rw [length_slice]; omega)]

/-- Writing one list behind another is writing both at once. -/
theorem copy_append (m : Mem) (off : ℕ) (bs bs' : List UInt8) :
    copy (copy m off bs) (off + bs.length) bs' = copy m off (bs ++ bs') := by
  funext i
  by_cases hlow : i < off
  · rw [copy_of_outside (by omega), copy_of_outside (by omega), copy_of_outside (by omega)]
  · obtain ⟨k, rfl⟩ := Nat.exists_eq_add_of_le (Nat.le_of_not_lt hlow)
    by_cases hfirst : k < bs.length
    · rw [copy_of_outside (by omega), copy_getElem hfirst,
        copy_getElem (by rw [List.length_append]; omega), List.getElem_append_left hfirst]
    · obtain ⟨j, rfl⟩ := Nat.exists_eq_add_of_le (Nat.le_of_not_lt hfirst)
      rw [← Nat.add_assoc]
      by_cases hsecond : j < bs'.length
      · rw [copy_getElem hsecond, Nat.add_assoc,
          copy_getElem (by rw [List.length_append]; omega),
          List.getElem_append_right (Nat.le_add_right _ _)]
        simp only [Nat.add_sub_cancel_left]
      · rw [copy_of_outside (by omega), copy_of_outside (by omega),
          copy_of_outside (by rw [List.length_append]; omega)]

/-! ## Moving bytes upwards -/

/-- Move `n` bytes from the highest down: `src` and `dst` are the addresses of the last ones. -/
def moveDown : ℕ → Mem → ℕ → ℕ → Mem
  | 0, m, _, _ => m
  | n + 1, m, src, dst => moveDown n (copy m dst [m src]) (src - 1) (dst - 1)

theorem copy_congr_at {m m' : Mem} {off i : ℕ} {bs : List UInt8} (h : m' i = m i) :
    copy m' off bs i = copy m off bs i := by
  rw [copy, copy, h]

/-- Writes that do not overlap may be exchanged. -/
theorem copy_comm {m : Mem} {off off' : ℕ} {bs bs' : List UInt8} (h : off + bs.length ≤ off') :
    copy (copy m off' bs') off bs = copy (copy m off bs) off' bs' := by
  funext i
  by_cases hi : i < off'
  · have hlow : copy m off' bs' i = m i := copy_of_outside (.inl hi)
    rw [copy_congr_at hlow, copy_of_outside (.inl hi)]
  · have hhigh : copy m off bs i = m i := copy_of_outside (by omega)
    rw [copy_of_outside (by omega), copy_congr_at hhigh]

/-- A move upwards may overlap: what is written lies above all that is still to be read. -/
theorem moveDown_eq {n start d : ℕ} (m : Mem) (hd : 0 < d) :
    moveDown n m (start + n - 1) (start + n - 1 + d) = copy m (start + d) (slice m start n) := by
  induction n generalizing m with
  | zero =>
    funext i
    exact (copy_of_outside (by rw [length_slice]; omega)).symm
  | succ n ih =>
    have hone : slice m (start + n) 1 = [m (start + n)] := by simp [slice]
    rw [moveDown, show start + (n + 1) - 1 = start + n by omega, slice_append, hone]
    rcases Nat.eq_zero_or_pos n with rfl | hpos
    · rfl
    · have hread : slice (copy m (start + n + d) [m (start + n)]) start n = slice m start n :=
        slice_congr fun i hi => copy_of_outside (by omega)
      rw [show start + n + d - 1 = start + n - 1 + d by omega, ih, hread,
        copy_comm (by rw [length_slice]; omega), ← copy_append, length_slice,
        show start + d + n = start + n + d by omega]

end Fullmac.Bytes
