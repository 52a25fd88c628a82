import Fullmac.Hal.Efuse

/-!
# What parsing the e-fuse reads

Reference: `host/hal/SSV6006/ssv6006_efuse.c`, `_ssv6006_hal_parser_efuse` and
`ssv6006_hal_read_efuse_macaddr`.

The parser stops at an index it does not know, and at nothing else: where the map ends it does not
ask. `LeadsTo m p q` says that the items from nibble `p` on, each as long as the table says, come to
an end at nibble `q`. The parser stays inside the map exactly when this is before the end of the map
(`halParserEfuse_inside_iff`). A value of one byte is read as a word of two; the second byte of it
is outside only where the next index is, too.
-/

namespace Fullmac.Hal

open Bytes (Mem nibble)

/-- Going from item to item from nibble `p` one comes to nibble `q`, which is no index of an item
that the parser knows. -/
inductive LeadsTo (m : Mem) : ℕ → ℕ → Prop
  | stop {p : ℕ} (hitem : itemAt m p = none) : LeadsTo m p p
  | next {p q : ℕ} {item : EfuseDataItem} (hitem : itemAt m p = some item)
      (hrest : LeadsTo m (p + item.nibbles) q) : LeadsTo m p q

variable {m : Mem} {st : EfuseState} {p q : ℕ}

/-- The size of `efuse_mapping_table`. -/
def efuseMapSize : ℕ := efuseHwsetMaxSize / 8

theorem LeadsTo.le (h : LeadsTo m p q) : p ≤ q := by
  induction h with
  | stop => exact Nat.le_refl _
  | next _ _ ih => exact Nat.le_trans (Nat.le_add_right _ _) ih

/-! ## One pass -/

theorem inside_macAcross {k n size : ℕ} (h : k + n < size) :
    Reads.Inside size m (macAcross k n) := by
  induction n generalizing k with
  | zero => exact Reads.inside_pure size m _
  | succ n ih =>
    simp only [macAcross, Reads.inside_bind, Reads.inside_read, Reads.inside_pure, and_true]
    exact ⟨by omega, by omega, ih (by omega)⟩

/-- A value of one byte is read inside when the next index is inside. -/
theorem inside_oneByteCase {size : ℕ} (item : EfuseDataItem) (hp : p + 3 < 2 * size) :
    Reads.Inside size m (oneByteCase st (4 * p / 8) (4 * p % 8) item) := by
  simp only [oneByteCase, oneByteValue, Reads.inside_bind, Reads.inside_ite, Reads.inside_readU16,
    Reads.inside_pure, and_true]
  constructor
  · intro hshift
    omega
  · intro hshift
    omega

theorem inside_macCase {size : ℕ} (hp : p + 13 < 2 * size) :
    Reads.Inside size m (macCase st (4 * p / 8) (4 * p % 8)) := by
  simp only [macCase, macBytes, Reads.inside_bind, Reads.inside_ite, Reads.inside_readSlice,
    Reads.inside_pure, and_true]
  constructor
  · intro hshift
    omega
  · intro hshift
    exact inside_macAcross (by omega)

/-- A pass reads its index. -/
theorem lt_of_inside_efusePass {size : ℕ} (hlen : st.realContentLen = 4 * p)
    (h : Reads.Inside size m (efusePass st)) : p < 2 * size := by
  rw [efusePass, Reads.inside_bind, Reads.inside_read, hlen] at h
  omega

/-- A pass at an item is inside when the next index is, a pass at the end of the list when its index
is. -/
theorem inside_efusePass {size : ℕ} (hlen : st.realContentLen = 4 * p)
    (hp : p + (itemAt m p).elim 0 EfuseDataItem.nibbles < 2 * size) :
    Reads.Inside size m (efusePass st) := by
  have hidx : ((m (4 * p / 8)).toNat >>> (4 * p % 8)) &&& 0xf = nibble m p := by
    rw [show 4 * p / 8 = p / 2 by omega, show 4 * p % 8 = 4 * (p % 2) by omega]
    exact Bytes.shiftRight_and_eq_nibble m p
  rw [efusePass, Reads.inside_bind, Reads.inside_read, Reads.val_read, hlen, hidx]
  refine ⟨by omega, ?_⟩
  rw [itemAt] at hp
  cases h : EfuseDataItem.ofIdx (nibble m p) with
  | none => exact Reads.inside_pure size m _
  | some item =>
    rw [h] at hp
    cases item with
    | mac => exact inside_macCase hp
    | iqCalibrationResult => exact Reads.inside_pure size m _
    | rCalibrationResult | sarResult | crystalFrequencyOffset | txPowerIndex1 | txPowerIndex2
    | chipIdentity => exact inside_oneByteCase _ hp

/-! ## The loop -/

/-- Items that come to an end inside are gone through inside. -/
theorem LeadsTo.inside {size : ℕ} (h : LeadsTo m p q) (hsize : 2 * size < 16000)
    (hq : q < 2 * size) (hlen : st.realContentLen = 4 * p) :
    ∃ n r, Reads.val m (efuseLoop n st) = some r ∧ Reads.Inside size m (efuseLoop n st) := by
  induction h generalizing st with
  | stop hitem =>
    refine ⟨1, { st with idx := 0 }, ?_, ?_⟩
    · rw [efuseLoop, Reads.val_bind, val_efusePass hlen (by omega), hitem]
      rfl
    · rw [efuseLoop, Reads.inside_bind, val_efusePass hlen (by omega), hitem]
      exact ⟨inside_efusePass hlen (by rw [hitem]; exact hq), Reads.inside_pure size m _⟩
  | @next p q item hitem hrest ih =>
    have hle := hrest.le
    have hval : Reads.val m (efusePass st) = st.next m p item := by
      rw [val_efusePass hlen (by omega), hitem]
    have hidx : (st.next m p item).idx ≠ 0 := item.idx_ne_zero
    have hnextLen : (st.next m p item).realContentLen = 4 * (p + item.nibbles) := rfl
    obtain ⟨n, r, hr, hinside⟩ := ih hq hnextLen
    refine ⟨n + 1, r, ?_, ?_⟩
    · rw [efuseLoop, Reads.val_bind, hval, Reads.val_ite, if_pos hidx, hr]
    · rw [efuseLoop, Reads.inside_bind, hval, Reads.inside_ite]
      have hnext : p + item.nibbles < 2 * size := by omega
      exact ⟨inside_efusePass hlen (by rw [hitem]; exact hnext), fun _ => hinside,
        fun h => absurd hidx h⟩

/-- A loop that ends and has stayed inside has come to an end of the items inside. -/
theorem leadsTo_of_inside {size n : ℕ} {r : EfuseState} (hsize : 2 * size < 16000)
    (hlen : st.realContentLen = 4 * p) (hval : Reads.val m (efuseLoop n st) = some r)
    (hinside : Reads.Inside size m (efuseLoop n st)) : ∃ q < 2 * size, LeadsTo m p q := by
  induction n generalizing st p with
  | zero => cases hval
  | succ n ih =>
    rw [efuseLoop, Reads.inside_bind] at hinside
    have hp := lt_of_inside_efusePass hlen hinside.1
    cases hitem : itemAt m p with
    | none => exact ⟨p, hp, .stop hitem⟩
    | some item =>
      have hpass : Reads.val m (efusePass st) = st.next m p item := by
        rw [val_efusePass hlen (by omega), hitem]
      have hidx : (st.next m p item).idx ≠ 0 := item.idx_ne_zero
      rw [hpass, Reads.inside_ite] at hinside
      rw [efuseLoop, Reads.val_bind, hpass, Reads.val_ite, if_pos hidx] at hval
      obtain ⟨q, hq, hrest⟩ := ih rfl hval (hinside.2.1 hidx)
      exact ⟨q, hq, .next hitem hrest⟩

theorem itemAt_zero (hzero : m 0 = 0) : itemAt m 0 = none := by
  have hnibble : nibble m (2 * 0) = 0 := by
    rw [Bytes.nibble_two_mul, hzero]
    rfl
  rw [itemAt, show nibble m 0 = 0 from hnibble]
  rfl

/-- Whatever the map holds, the parser returns and has read inside the map only, exactly when going
from item to item one comes to an index that the parser does not know before the map ends. -/
theorem halParserEfuse_inside_iff (m : Mem) (value : EfuseDataItem → UInt16)
    (macAddr : List UInt8) :
    (∃ n st, Reads.val m (halParserEfuse n value macAddr) = some st ∧
      Reads.Inside efuseMapSize m (halParserEfuse n value macAddr))
      ↔ ∃ q < 2 * efuseMapSize, LeadsTo m 0 q := by
  have hfirst : 0 < efuseMapSize := by decide
  have hsize : 2 * efuseMapSize < 16000 := by decide
  simp only [halParserEfuse, Reads.val_bind, Reads.val_ite, Reads.val_read, Reads.val_pure,
    Reads.inside_bind, Reads.inside_ite, Reads.inside_read, Reads.inside_pure, hfirst, true_and]
  by_cases hzero : m 0 = 0
  · simp only [if_pos hzero]
    exact ⟨fun _ => ⟨0, by decide, .stop (itemAt_zero hzero)⟩,
      fun _ => ⟨0, _, rfl, fun _ => trivial, fun h => absurd hzero h⟩⟩
  · simp only [if_neg hzero]
    constructor
    · rintro ⟨n, st, hval, -, hinside⟩
      exact leadsTo_of_inside hsize rfl hval (hinside hzero)
    · rintro ⟨q, hq, hleads⟩
      have hlen : (⟨0, 0, value, macAddr⟩ : EfuseState).realContentLen = 4 * 0 := rfl
      obtain ⟨n, r, hval, hinside⟩ := hleads.inside hsize hq hlen
      exact ⟨n, r, hval, fun h => absurd h hzero, fun _ => hinside⟩

/-- A map full of calibration results: the parser leaves it. -/
theorem not_inside_full :
    ¬ ∃ n st, Reads.val (fun _ => 0x11) (halParserEfuse n (fun _ => 0) []) = some st ∧
      Reads.Inside efuseMapSize (fun _ => 0x11) (halParserEfuse n (fun _ => 0) []) := by
  rintro ⟨n, st, hval, hinside⟩
  have hloop : Reads.val (fun _ => 0x11) (efuseLoop n ⟨0, 0, fun _ => 0, []⟩) = some st := hval
  rw [halParserEfuse, Reads.inside_bind, Reads.inside_ite] at hinside
  obtain ⟨q, -, hleads⟩ :=
    leadsTo_of_inside (p := 0) (by decide) rfl hloop (hinside.2.2 (by decide))
  -- every nibble is an index
  have hitem : ∀ p, itemAt (fun _ => 0x11) p = some .rCalibrationResult := by
    intro p
    have hnibble : nibble (fun _ => 0x11) p = 1 := by
      rw [nibble]
      rcases Nat.mod_two_eq_zero_or_one p with h | h <;> rw [h] <;> rfl
    rw [itemAt, hnibble]
    rfl
  generalize 0 = p at hleads
  induction hleads with
  | stop h =>
    rw [hitem] at h
    cases h
  | next _ _ ih => exact ih

end Fullmac.Hal
