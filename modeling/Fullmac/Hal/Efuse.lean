import Fullmac.Lib.Nibbles
import Fullmac.Lib.Reads
import Mathlib.Algebra.Ring.Nat
import Mathlib.Data.List.Induction
import Mathlib.Logic.Function.Basic

/-!
# The items of the e-fuse

Reference: `host/hal/SSV6006/ssv6006_efuse.c`, `SSV_EFUSE_ITEM_TABLE` and
`_ssv6006_hal_parser_efuse`; `ssv6006_efuse.h`.

The e-fuse holds a list of items, each an index of four bits and a value of as many bits as a table
says, one behind the other and without regard to bytes; an index that is none ends the list. The
parser goes from item to item by the length in bits, and reads an item in one of two ways, according
to the half of a byte in which its index lies. The index of the IQ calibration result is in the
table, but the parser takes it for the end of the list.
-/

namespace Fullmac.Hal

open Bytes (Mem nibble pair Spells leNibbles slice getU16)

/-! ## The parser -/

/-- `enum efuse_data_item`. -/
inductive EfuseDataItem
  | rCalibrationResult | sarResult | mac | crystalFrequencyOffset | iqCalibrationResult
  | txPowerIndex1 | txPowerIndex2 | chipIdentity
deriving DecidableEq, Repr

namespace EfuseDataItem

/-- The number of an item. -/
def idx : EfuseDataItem → ℕ
  | rCalibrationResult => 1
  | sarResult => 2
  | mac => 3
  | crystalFrequencyOffset => 4
  | iqCalibrationResult => 5
  | txPowerIndex1 => 6
  | txPowerIndex2 => 7
  | chipIdentity => 8

/-- The item of a number. -/
def ofIdx : ℕ → Option EfuseDataItem
  | 1 => some rCalibrationResult
  | 2 => some sarResult
  | 3 => some mac
  | 4 => some crystalFrequencyOffset
  | 5 => some iqCalibrationResult
  | 6 => some txPowerIndex1
  | 7 => some txPowerIndex2
  | 8 => some chipIdentity
  | _ => none

/-- `byte_cnts` of `SSV_EFUSE_ITEM_TABLE`: the bits of the value. -/
def byteCnts : EfuseDataItem → ℕ
  | mac => 48
  | iqCalibrationResult => 12
  | _ => 8

/-- `offset` of `SSV_EFUSE_ITEM_TABLE`: the bits of the index. -/
def offset : EfuseDataItem → ℕ := fun _ => 4

end EfuseDataItem

/-- The variables of the parser, the values of `SSV_EFUSE_ITEM_TABLE`, and `mac_addr`. At the head
of the loop `rtemp8` and `shift` are always the byte and the bit where `efuse_real_content_len`
points to. -/
structure EfuseState where
  idx : ℕ
  realContentLen : ℕ
  value : EfuseDataItem → UInt16
  macAddr : List UInt8

/-- The loop that collects `n` bytes that lie across the bytes of the buffer. -/
def macAcross : ℕ → ℕ → Reads (List UInt8)
  | _, 0 => pure []
  | rtemp8, n + 1 => do
    let b ← Reads.read rtemp8
    let b' ← Reads.read (rtemp8 + 1)
    let temp1 := (b >>> 4) &&& 0x0F
    let temp2 := (b' <<< 4) &&& 0xF0
    let rest ← macAcross (rtemp8 + 1) n
    pure ((temp2 ||| temp1) :: rest)

/-- The loop body behind the `switch`: the length counts the item, in sixteen bits. -/
def addLen (len : ℕ) (item : EfuseDataItem) : ℕ :=
  (len + (item.offset + item.byteCnts)) % 65536

/-- The value of an item of one byte. -/
def oneByteValue (rtemp8 shift : ℕ) (item : EfuseDataItem) : Reads ℕ :=
  if shift ≠ 0 then do
    let w ← Reads.readU16 (rtemp8 + 1)
    pure ((w % 256) &&& (2 ^ item.byteCnts - 1))
  else do
    let w ← Reads.readU16 rtemp8
    pure (((w >>> 4) % 256) &&& (2 ^ item.byteCnts - 1))

/-- The case of the items of one byte. -/
def oneByteCase (st : EfuseState) (rtemp8 shift : ℕ) (item : EfuseDataItem) : Reads EfuseState := do
  let v ← oneByteValue rtemp8 shift item
  pure ⟨item.idx, addLen st.realContentLen item,
    Function.update st.value item (UInt16.ofNat v), st.macAddr⟩

/-- The six bytes of the address. -/
def macBytes (rtemp8 shift : ℕ) : Reads (List UInt8) :=
  if shift ≠ 0 then Reads.readSlice (rtemp8 + 1) 6 else macAcross rtemp8 6

/-- The case of `EFUSE_MAC`. -/
def macCase (st : EfuseState) (rtemp8 shift : ℕ) : Reads EfuseState := do
  let mac ← macBytes rtemp8 shift
  pure ⟨EfuseDataItem.mac.idx, addLen st.realContentLen .mac, st.value, mac⟩

/-- One pass of the loop. -/
def efusePass (st : EfuseState) : Reads EfuseState := do
  let rtemp8 := st.realContentLen / 8
  let shift := st.realContentLen % 8
  let b ← Reads.read rtemp8
  match EfuseDataItem.ofIdx ((b.toNat >>> shift) &&& 0xf) with
  | some .mac => macCase st rtemp8 shift
  | some .iqCalibrationResult => pure { st with idx := 0 }
  | some item => oneByteCase st rtemp8 shift item
  | none => pure { st with idx := 0 }

/-- The loop, for at most `n` passes. -/
def efuseLoop : ℕ → EfuseState → Reads (Option EfuseState)
  | 0, _ => pure none
  | n + 1, st => do
    let st ← efusePass st
    if st.idx ≠ 0 then efuseLoop n st else pure (some st)

/-- `_ssv6006_hal_parser_efuse`, with the values and the address that were there before. It returns
`realContentLen`. -/
def halParserEfuse (n : ℕ) (value : EfuseDataItem → UInt16) (macAddr : List UInt8) :
    Reads (Option EfuseState) := do
  let b ← Reads.read 0
  if b = 0 then pure (some ⟨0, 0, value, macAddr⟩) else efuseLoop n ⟨0, 0, value, macAddr⟩

/-! ## One pass in nibbles -/

namespace EfuseDataItem

/-- The parser goes on behind the item. -/
def Parsed (item : EfuseDataItem) : Prop := item ≠ iqCalibrationResult

instance : DecidablePred Parsed := fun _ => inferInstanceAs (Decidable (_ ≠ _))

/-- The nibbles of an item, its index included. -/
def nibbles (item : EfuseDataItem) : ℕ := 1 + item.byteCnts / 4

@[simp] theorem ofIdx_idx (item : EfuseDataItem) : ofIdx item.idx = some item := by
  cases item <;> rfl

theorem idx_lt (item : EfuseDataItem) : item.idx < 16 := by
  cases item <;> decide

theorem idx_ne_zero (item : EfuseDataItem) : item.idx ≠ 0 := by
  cases item <;> decide

theorem nibbles_le (item : EfuseDataItem) : item.nibbles ≤ 13 := by
  cases item <;> decide

theorem four_mul_nibbles (item : EfuseDataItem) :
    4 * item.nibbles = item.offset + item.byteCnts := by
  cases item <;> rfl

end EfuseDataItem

variable {m : Mem} {st : EfuseState} {p : ℕ}

/-- The item whose index is at nibble `p`, if it is one that the parser knows. -/
def itemAt (m : Mem) (p : ℕ) : Option EfuseDataItem :=
  (EfuseDataItem.ofIdx (nibble m p)).filter EfuseDataItem.Parsed

/-- The six bytes from nibble `p` on. -/
def macAt (m : Mem) (p : ℕ) : List UInt8 :=
  (List.range 6).map fun i => UInt8.ofNat (pair m (p + 2 * i))

/-- What is stored of an item whose value begins at nibble `p`. -/
def EfuseState.store (st : EfuseState) (m : Mem) (p : ℕ) (item : EfuseDataItem) : EfuseState :=
  if item = .mac then { st with macAddr := macAt m p }
  else { st with value := Function.update st.value item (UInt16.ofNat (pair m p)) }

/-- The state behind an item whose index is at nibble `p`. -/
def EfuseState.next (st : EfuseState) (m : Mem) (p : ℕ) (item : EfuseDataItem) : EfuseState :=
  { st.store m (p + 1) item with idx := item.idx, realContentLen := 4 * (p + item.nibbles) }

theorem val_macAcross (m : Mem) (k n : ℕ) :
    Reads.val m (macAcross k n)
      = (List.range n).map fun i => UInt8.ofNat (pair m (2 * k + 1 + 2 * i)) := by
  induction n generalizing k with
  | zero => rfl
  | succ n ih =>
    have hshift : ∀ i, 2 * (k + 1) + 1 + 2 * i = 2 * k + 1 + 2 * (i + 1) := fun i => by omega
    rw [macAcross]
    simp only [Reads.val_bind, Reads.val_read, Reads.val_pure, ih, hshift, Bytes.or_halves,
      List.range_succ_eq_map, List.map_cons, List.map_map, Nat.mul_zero, Nat.add_zero,
      Bytes.pair_two_mul_add_one]
    rfl

/-- A position in bits that is one in nibbles lies in one of the halves of a byte. -/
theorem even_or_odd_nibble (p : ℕ) :
    (p % 2 = 0 ∧ 4 * p / 8 = p / 2 ∧ 4 * p % 8 = 0 ∧ p = 2 * (p / 2)) ∨
      (p % 2 = 1 ∧ 4 * p / 8 = p / 2 ∧ 4 * p % 8 = 4 ∧ p = 2 * (p / 2) + 1) := by
  omega

theorem addLen_eq (hp : 4 * p + 52 < 65536) (item : EfuseDataItem) :
    addLen (4 * p) item = 4 * (p + item.nibbles) := by
  have hle := item.nibbles_le
  rw [addLen, ← item.four_mul_nibbles, Nat.mod_eq_of_lt (by omega)]
  omega

theorem val_oneByteValue (m : Mem) (p : ℕ) {item : EfuseDataItem} (hitem : item.byteCnts = 8) :
    Reads.val m (oneByteValue (4 * p / 8) (4 * p % 8) item) = pair m (p + 1) := by
  have hmask : ∀ w, w % 256 &&& 2 ^ item.byteCnts - 1 = w % 256 := fun w => by
    rw [hitem, Nat.and_two_pow_sub_one_eq_mod, Nat.mod_mod]
  rw [oneByteValue, Reads.val_ite, Reads.val_bind, Reads.val_bind, Reads.val_readU16,
    Reads.val_readU16, Reads.val_pure, Reads.val_pure, hmask, hmask, getU16, getU16]
  rcases even_or_odd_nibble p with ⟨-, hdiv, hmod, hpos⟩ | ⟨-, hdiv, hmod, hpos⟩
  · have hpair := Bytes.pair_two_mul_add_one m (p / 2)
    have hlt := (m (p / 2)).toNat_lt
    rw [← hpos] at hpair
    rw [if_neg (by omega), hdiv, Nat.shiftRight_eq_div_pow, hpair]
    omega
  · have hpair := Bytes.pair_two_mul m (p / 2 + 1)
    have hlt := (m (p / 2 + 1)).toNat_lt
    rw [show 2 * (p / 2 + 1) = p + 1 by omega] at hpair
    rw [if_pos (by omega), hdiv, hpair]
    omega

theorem val_macBytes (m : Mem) (p : ℕ) :
    Reads.val m (macBytes (4 * p / 8) (4 * p % 8)) = macAt m (p + 1) := by
  rw [macBytes, Reads.val_ite, Reads.val_readSlice, val_macAcross, macAt]
  rcases even_or_odd_nibble p with ⟨-, hdiv, hmod, hpos⟩ | ⟨-, hdiv, hmod, hpos⟩
  · rw [if_neg (by omega), hdiv, ← hpos]
  · rw [if_pos (by omega), hdiv, slice]
    refine List.map_congr_left fun i _ => ?_
    rw [show p + 1 + 2 * i = 2 * (p / 2 + 1 + i) by omega, Bytes.pair_two_mul, UInt8.ofNat_toNat]

theorem val_oneByteCase (hlen : st.realContentLen = 4 * p) (hp : 4 * p + 52 < 65536)
    {item : EfuseDataItem} (hitem : item.byteCnts = 8) (hmac : item ≠ .mac) :
    Reads.val m (oneByteCase st (4 * p / 8) (4 * p % 8) item) = st.next m p item := by
  rw [oneByteCase, Reads.val_bind, val_oneByteValue m p hitem, Reads.val_pure, hlen, addLen_eq hp,
    EfuseState.next, EfuseState.store, if_neg hmac]

theorem val_macCase (hlen : st.realContentLen = 4 * p) (hp : 4 * p + 52 < 65536) :
    Reads.val m (macCase st (4 * p / 8) (4 * p % 8)) = st.next m p .mac := by
  rw [macCase, Reads.val_bind, val_macBytes, Reads.val_pure, hlen, addLen_eq hp, EfuseState.next,
    EfuseState.store, if_pos rfl]

/-- A pass reads the item at hand and goes on behind it, or ends the list. -/
theorem val_efusePass (hlen : st.realContentLen = 4 * p) (hp : 4 * p + 52 < 65536) :
    Reads.val m (efusePass st)
      = match itemAt m p with
        | some item => st.next m p item
        | none => { st with idx := 0 } := by
  have hidx : ((m (st.realContentLen / 8)).toNat >>> (st.realContentLen % 8)) &&& 0xf
      = nibble m p := by
    rw [hlen, show 4 * p / 8 = p / 2 by omega, show 4 * p % 8 = 4 * (p % 2) by omega]
    exact Bytes.shiftRight_and_eq_nibble m p
  rw [efusePass, Reads.val_bind, Reads.val_read, hidx, itemAt, hlen]
  cases EfuseDataItem.ofIdx (nibble m p) with
  | none => rfl
  | some item =>
    cases item with
    | mac => exact val_macCase hlen hp
    | iqCalibrationResult => rfl
    | rCalibrationResult | sarResult | crystalFrequencyOffset | txPowerIndex1 | txPowerIndex2
    | chipIdentity => exact val_oneByteCase hlen hp rfl (by decide)

/-! ## Lists of items -/

/-- `EFUSE_HWSET_MAX_SIZE`, in bits. -/
def efuseHwsetMaxSize : ℕ := 256 - 32

/-- An item with a value of as many bits as the table says. -/
structure EfuseItem where
  item : EfuseDataItem
  value : ℕ
  value_lt : value < 2 ^ item.byteCnts

/-- The nibbles of an item: its index, and its value from the lowest bits up. -/
def EfuseItem.pack (it : EfuseItem) : List ℕ :=
  it.item.idx :: leNibbles (it.item.byteCnts / 4) it.value

/-- The items one behind the other. -/
def packed (its : List EfuseItem) : List ℕ := its.flatMap EfuseItem.pack

/-- Their length in bits. -/
def packedLen (its : List EfuseItem) : ℕ :=
  (its.map fun it => it.item.offset + it.item.byteCnts).sum

/-- The value of the last item of a kind. -/
def lastValue (item : EfuseDataItem) (its : List EfuseItem) : Option ℕ :=
  (its.filter (·.item = item)).getLast?.map EfuseItem.value

/-- The bytes of an address, the lowest first. -/
def macOf (v : ℕ) : List UInt8 := (List.range 6).map fun i => UInt8.ofNat (v / 256 ^ i % 256)

/-- The parser has returned the length of the items, and left the last value of each in the table
and in `mac_addr`, over the values that were there before. -/
structure Decoded (its : List EfuseItem) (value : EfuseDataItem → UInt16) (macAddr : List UInt8)
    (st : EfuseState) : Prop where
  len : st.realContentLen = packedLen its
  value : ∀ item : EfuseDataItem, item.byteCnts = 8 →
    st.value item = (lastValue item its).elim (value item) UInt16.ofNat
  macAddr : st.macAddr = (lastValue .mac its).elim macAddr macOf

/-- What is to be stored of an item. -/
def EfuseState.keep (st : EfuseState) (it : EfuseItem) : EfuseState :=
  if it.item = .mac then { st with macAddr := macOf it.value }
  else { st with value := Function.update st.value it.item (UInt16.ofNat it.value) }

variable {its : List EfuseItem}

@[simp] theorem EfuseItem.length_pack (it : EfuseItem) : it.pack.length = it.item.nibbles := by
  rw [pack, List.length_cons, Bytes.length_leNibbles, EfuseDataItem.nibbles, Nat.add_comm]

theorem packed_cons (it : EfuseItem) (its : List EfuseItem) :
    packed (it :: its) = it.pack ++ packed its := rfl

theorem packedLen_eq (its : List EfuseItem) : packedLen its = 4 * (packed its).length := by
  induction its with
  | nil => rfl
  | cons it its ih =>
    rw [packedLen] at ih
    rw [packedLen, List.map_cons, List.sum_cons, ih, packed_cons, List.length_append,
      it.length_pack, Nat.mul_add, it.item.four_mul_nibbles]

theorem length_packed_lt (pre post : List EfuseItem) (it : EfuseItem) :
    (packed pre).length < (packed (pre ++ it :: post)).length := by
  have hsplit : packed (pre ++ it :: post) = packed pre ++ (it.pack ++ packed post) := by
    rw [packed, List.flatMap_append]
    rfl
  rw [hsplit, List.length_append, List.length_append, it.length_pack, EfuseDataItem.nibbles]
  omega

/-- An item that is spelled out is found. -/
theorem itemAt_of_spells {it : EfuseItem} (h : Spells m p it.pack) :
    itemAt m p = if it.item.Parsed then some it.item else none := by
  obtain ⟨hidx, -⟩ := h
  rw [itemAt, hidx, EfuseDataItem.ofIdx_idx]
  by_cases hparsed : it.item.Parsed <;> simp [hparsed]

/-- What the parser stores of an item that is spelled out is its value. -/
theorem store_of_spells {it : EfuseItem} (h : Spells m p it.pack) (hparsed : it.item.Parsed) :
    st.store m (p + 1) it.item = st.keep it := by
  obtain ⟨-, hvalue⟩ := h
  rw [EfuseState.store, EfuseState.keep]
  split
  · rename_i hmac
    rw [hmac] at hvalue
    have hbytes : macAt m (p + 1) = macOf it.value := List.map_congr_left fun i hi => by
      rw [Bytes.pair_of_spells (n := 6) hvalue (List.mem_range.mp hi)]
    rw [hbytes]
  · rename_i hmac
    have hbits : it.item.byteCnts = 8 := by
      revert hmac hparsed
      cases it.item <;> simp [EfuseDataItem.Parsed, EfuseDataItem.byteCnts]
    have hlt := it.value_lt
    rw [hbits] at hvalue hlt
    have hlt' : it.value < 256 := hlt
    have hpair := Bytes.pair_of_spells (n := 1) hvalue Nat.one_pos
    rw [Nat.pow_zero, Nat.div_one, Nat.mod_eq_of_lt hlt', Nat.mul_zero, Nat.add_zero] at hpair
    rw [hpair]

theorem EfuseState.keep_value {item : EfuseDataItem} (st : EfuseState) (it : EfuseItem)
    (hitem : item ≠ .mac) :
    (st.keep it).value item
      = if it.item = item then UInt16.ofNat it.value else st.value item := by
  rw [keep]
  by_cases hmac : it.item = .mac
  · rw [if_pos hmac, if_neg (hmac ▸ hitem.symm)]
  · rw [if_neg hmac]
    by_cases heq : it.item = item
    · rw [if_pos heq, ← heq]
      exact Function.update_self ..
    · rw [if_neg heq]
      exact Function.update_of_ne (Ne.symm heq) ..

theorem EfuseState.keep_macAddr (st : EfuseState) (it : EfuseItem) :
    (st.keep it).macAddr = if it.item = .mac then macOf it.value else st.macAddr := by
  rw [keep]
  split <;> rfl

/-- An item stored later is the one that counts. -/
theorem lastValue_append_singleton (item : EfuseDataItem) (its : List EfuseItem) (it : EfuseItem) :
    lastValue item (its ++ [it])
      = if it.item = item then some it.value else lastValue item its := by
  rw [lastValue, List.filter_append]
  by_cases heq : it.item = item
  · rw [if_pos heq, List.filter_cons_of_pos (by simpa using heq), List.filter_nil,
      List.getLast?_concat]
    rfl
  · rw [if_neg heq, List.filter_cons_of_neg (by simpa using heq), List.filter_nil, List.append_nil]
    rfl

/-- Storing the items one after the other leaves the last value of each. -/
theorem foldl_keep_value {item : EfuseDataItem} (st : EfuseState) (its : List EfuseItem)
    (hitem : item ≠ .mac) :
    (its.foldl EfuseState.keep st).value item
      = (lastValue item its).elim (st.value item) UInt16.ofNat := by
  induction its using List.reverseRecOn with
  | nil => rfl
  | append_singleton its it ih =>
    rw [List.foldl_append, List.foldl_cons, List.foldl_nil, EfuseState.keep_value _ it hitem, ih,
      lastValue_append_singleton]
    split <;> rfl

theorem foldl_keep_macAddr (st : EfuseState) (its : List EfuseItem) :
    (its.foldl EfuseState.keep st).macAddr = (lastValue .mac its).elim st.macAddr macOf := by
  induction its using List.reverseRecOn with
  | nil => rfl
  | append_singleton its it ih =>
    rw [List.foldl_append, List.foldl_cons, List.foldl_nil, EfuseState.keep_macAddr, ih,
      lastValue_append_singleton]
    split <;> rfl

/-- What is stored does not depend on the index and the length, and does not change them. -/
theorem foldl_keep_with (st : EfuseState) (its : List EfuseItem) (idx len : ℕ) :
    its.foldl EfuseState.keep { st with idx := idx, realContentLen := len }
      = { its.foldl EfuseState.keep st with idx := idx, realContentLen := len } := by
  induction its generalizing st with
  | nil => rfl
  | cons it its ih =>
    have hkeep : EfuseState.keep { st with idx := idx, realContentLen := len } it
        = { st.keep it with idx := idx, realContentLen := len } := by
      rw [EfuseState.keep, EfuseState.keep]
      split <;> rfl
    rw [List.foldl_cons, hkeep, ih, List.foldl_cons]

/-! ## The loop over a list of items -/

/-- The items stored, and the length where they end. -/
def EfuseState.keepAll (st : EfuseState) (its : List EfuseItem) (len : ℕ) : EfuseState :=
  { its.foldl EfuseState.keep st with idx := 0, realContentLen := len }

/-- The loop goes from item to item, and stops behind the last. -/
theorem val_efuseLoop (st : EfuseState) (hspells : Spells m p (packed its))
    (hparsed : ∀ it ∈ its, it.item.Parsed)
    (hend : itemAt m (p + (packed its).length) = none) (hlen : st.realContentLen = 4 * p)
    (hbound : 4 * (p + (packed its).length) + 52 < 65536) (n : ℕ) :
    Reads.val m (efuseLoop n st)
      = if its.length < n then some (st.keepAll its (4 * (p + (packed its).length)))
        else none := by
  induction its generalizing p st n with
  | nil =>
    cases n with
    | zero => rfl
    | succ n =>
      rw [packed, List.flatMap_nil, List.length_nil, Nat.add_zero] at *
      rw [efuseLoop, Reads.val_bind, val_efusePass hlen hbound, hend, Reads.val_ite,
        if_neg (by simp), if_pos (Nat.succ_pos n), Reads.val_pure, EfuseState.keepAll,
        List.length_nil, Nat.add_zero, ← hlen]
      rfl
  | cons it its ih =>
    cases n with
    | zero => rfl
    | succ n =>
      rw [packed_cons, Bytes.spells_append, it.length_pack] at hspells
      rw [packed_cons, List.length_append, it.length_pack, ← Nat.add_assoc] at hend hbound
      have hit := hparsed it List.mem_cons_self
      have hitem := itemAt_of_spells hspells.1
      rw [if_pos hit] at hitem
      have hstep : Reads.val m (efusePass st) = st.next m p it.item := by
        rw [val_efusePass hlen (by omega), hitem]
      have hidx : (st.next m p it.item).idx ≠ 0 := it.item.idx_ne_zero
      rw [efuseLoop, Reads.val_bind, hstep, Reads.val_ite, if_pos hidx,
        ih _ hspells.2 (fun it' h => hparsed it' (List.mem_cons_of_mem it h)) hend rfl hbound]
      refine if_congr (by rw [List.length_cons]; omega) ?_ rfl
      rw [EfuseState.keepAll, EfuseState.next, store_of_spells hspells.1 hit, foldl_keep_with,
        EfuseState.keepAll, List.foldl_cons, packed_cons, List.length_append, it.length_pack,
        Nat.add_assoc]

/-- The parser, on items behind which there is none that it knows: what it returns if it returns,
and that it does. -/
theorem val_halParserEfuse (hspells : Spells m 0 (packed its))
    (hparsed : ∀ it ∈ its, it.item.Parsed) (hend : itemAt m (packed its).length = none)
    (hbound : 4 * (packed its).length + 52 < 65536) (n : ℕ) (value : EfuseDataItem → UInt16)
    (macAddr : List UInt8) :
    (∀ st, Reads.val m (halParserEfuse n value macAddr) = some st →
      st = EfuseState.keepAll ⟨0, 0, value, macAddr⟩ its (packedLen its)) ∧
    (its.length < n → ∃ st, Reads.val m (halParserEfuse n value macAddr) = some st) := by
  have hloop := val_efuseLoop ⟨0, 0, value, macAddr⟩ hspells hparsed
    (by rwa [Nat.zero_add]) rfl (by rwa [Nat.zero_add]) n
  rw [Nat.zero_add, ← packedLen_eq] at hloop
  rw [halParserEfuse, Reads.val_bind, Reads.val_read, Reads.val_ite, hloop, Reads.val_pure]
  by_cases hzero : m 0 = 0
  · -- an index of an item is not zero, so there is no item
    have hnil : its = [] := by
      cases its with
      | nil => rfl
      | cons it its =>
        rw [packed_cons, Bytes.spells_append] at hspells
        have hidx : nibble m 0 = it.item.idx := hspells.1.1
        rw [show (0 : ℕ) = 2 * 0 from rfl, Bytes.nibble_two_mul, hzero] at hidx
        exact absurd hidx.symm it.item.idx_ne_zero
    rw [if_pos hzero, hnil]
    exact ⟨fun st h => (Option.some.inj h).symm, fun _ => ⟨_, rfl⟩⟩
  · rw [if_neg hzero]
    constructor
    · intro st h
      split at h
      · exact (Option.some.inj h).symm
      · cases h
    · intro hn
      rw [if_pos hn]
      exact ⟨_, rfl⟩

theorem decoded_keepAll (value : EfuseDataItem → UInt16) (macAddr : List UInt8)
    (its : List EfuseItem) :
    Decoded its value macAddr
      (EfuseState.keepAll ⟨0, 0, value, macAddr⟩ its (packedLen its)) :=
  ⟨rfl, fun item hitem => foldl_keep_value _ its (by rintro rfl; cases hitem),
    foldl_keep_macAddr _ its⟩

/-- On any list of items that fits in the map and ends with an index of zero, the parser returns,
and returns what it should, exactly when no item is the result of the IQ calibration. -/
theorem halParserEfuse_decoded_iff (m : Mem) (its : List EfuseItem)
    (value : EfuseDataItem → UInt16) (macAddr : List UInt8)
    (hspells : Spells m 0 (packed its ++ [0])) (hsize : packedLen its + 4 ≤ efuseHwsetMaxSize) :
    (∃ n st, Reads.val m (halParserEfuse n value macAddr) = some st ∧
      Decoded its value macAddr st) ↔ ∀ it ∈ its, it.item ≠ .iqCalibrationResult := by
  rw [Bytes.spells_append, Nat.zero_add] at hspells
  obtain ⟨hspells, hzero, -⟩ := hspells
  rw [packedLen_eq, efuseHwsetMaxSize] at hsize
  constructor
  · rintro ⟨n, st, hval, hdecoded⟩ it hit hiq
    -- the first such item is where the parser stops
    have hsome : (its.find? (·.item = .iqCalibrationResult)).isSome :=
      List.find?_isSome.mpr ⟨it, hit, decide_eq_true hiq⟩
    obtain ⟨it, hfind⟩ := Option.isSome_iff_exists.mp hsome
    obtain ⟨hfirst, pre, post, rfl, hpre⟩ := List.find?_eq_some_iff_append.mp hfind
    have hitem : it.item = .iqCalibrationResult := of_decide_eq_true hfirst
    have hparsed : ∀ it' ∈ pre, it'.item ≠ .iqCalibrationResult := fun it' h => by
      simpa using hpre it' h
    have hsplit : packed (pre ++ it :: post) = packed pre ++ (it.pack ++ packed post) := by
      rw [packed, List.flatMap_append]
      rfl
    have hshort := length_packed_lt pre post it
    rw [hsplit, Bytes.spells_append, Bytes.spells_append, Nat.zero_add] at hspells
    have hend : itemAt m (packed pre).length = none := by
      have hstop : ¬ it.item.Parsed := not_not_intro hitem
      rw [itemAt_of_spells hspells.2.1, if_neg hstop]
    have hst := (val_halParserEfuse hspells.1 hparsed hend (by omega) n value macAddr).1 st hval
    have hlen := hdecoded.len
    rw [hst] at hlen
    have hsame : packedLen pre = packedLen (pre ++ it :: post) := hlen
    rw [packedLen_eq, packedLen_eq] at hsame
    omega
  · intro hparsed
    have hend : itemAt m (packed its).length = none := by
      rw [itemAt, hzero]
      rfl
    obtain ⟨hall, hex⟩ := val_halParserEfuse hspells hparsed hend (by omega) (its.length + 1) value
      macAddr
    obtain ⟨st, hst⟩ := hex (Nat.lt_succ_self _)
    exact ⟨its.length + 1, st, hst, hall st hst ▸ decoded_keepAll value macAddr its⟩

/-- Two items of one byte, the second across two bytes of the map. -/
def twoItems : List EfuseItem :=
  [⟨.rCalibrationResult, 0x5A, by decide⟩, ⟨.sarResult, 0x3C, by decide⟩]

theorem halParserEfuse_decoded_twoItems :
    ∃ n st, Reads.val (fun i => [0xA1, 0x25, 0x3C].getD i 0) (halParserEfuse n (fun _ => 0) [])
      = some st ∧ Decoded twoItems (fun _ => 0) [] st := by
  have hspells : Spells (fun i => [0xA1, 0x25, 0x3C].getD i 0) 0 (packed twoItems ++ [0]) :=
    ⟨rfl, rfl, rfl, rfl, rfl, rfl, rfl, trivial⟩
  exact (halParserEfuse_decoded_iff _ twoItems _ _ hspells (by decide)).mpr (by decide)

/-- A map that holds a result of the IQ calibration and nothing else: no length is returned that
counts it. -/
theorem not_decoded_iqCalibrationResult :
    ¬ ∃ n st, Reads.val (fun i => [0x15, 0x32].getD i 0) (halParserEfuse n (fun _ => 0) [])
      = some st ∧ Decoded [⟨.iqCalibrationResult, 0x321, by decide⟩] (fun _ => 0) [] st := by
  rintro ⟨n, st, hval, hdecoded⟩
  have hspells : Spells (fun i => [0x15, 0x32].getD i 0) 0 (packed []) := trivial
  have hst := (val_halParserEfuse hspells (by simp) (by decide) (by decide) n
    (fun _ => 0) []).1 st hval
  have hlen := hdecoded.len
  rw [hst] at hlen
  exact absurd hlen (by decide)

end Fullmac.Hal
