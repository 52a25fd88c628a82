import Fullmac.Lib.Writer
import Mathlib.Data.Nat.Bitwise

/-!
# The TIM element of a beacon

Reference: `host/ap/beacon.c`, `ieee80211_beacon_add_tim`; `host/ap/common/bitmap.h`,
`bitmap_empty`, and `bitmap.c`, `__bitmap_empty`.

A station finds its bit in a part of the traffic indication map: the element carries the octets
from an even octet N1 to an octet N2, and the control octet has N1 in its upper seven bits. What
the element says about any octet of the map is `decodeOctet`. There is room for 252 octets, and
for an N1 of at most 254 (`Encodable`); a map of up to 252 octets fits wherever its bits are.
-/

namespace Fullmac.Ap.Beacon

open Bytes Writer
open Writer.Cursor (blank)

/-! ## The writer -/

/-- What `ieee80211_beacon_add_tim` reads: of `ApInfo_st`, the `gMaxTimLen` octets of the map among
them, `gMaxAID`, and of the configuration. -/
structure TimInfo where
  numStaPs : UInt8
  tim : List UInt8
  maxAid : ℕ
  dtimCount : ℤ
  timAllOne : Bool

/-- A `long` of the map. -/
def longAt (tim : List UInt8) (k : ℕ) : ℕ := getU32 (fun i => tim.getD i 0) (4 * k)

/-- `BITMAP_LAST_WORD_MASK`. -/
def bitmapLastWordMask (nbits : ℕ) : ℕ :=
  if nbits % 32 ≠ 0 then 2 ^ (nbits % 32) - 1 else 0xffffffff

/-- `bitmap_empty`, with `__bitmap_empty` where there are more bits than a `long` has. -/
def bitmapEmpty (tim : List UInt8) (nbits : ℕ) : Bool :=
  if nbits ≤ 32 then longAt tim 0 &&& bitmapLastWordMask nbits == 0
  else (List.range (nbits / 32)).all (fun k => longAt tim k == 0)
    && (nbits % 32 == 0 || longAt tim (nbits / 32) &&& bitmapLastWordMask nbits == 0)

/-- `have_bits`. -/
def haveBits (t : TimInfo) : Bool := 0 < t.numStaPs && !bitmapEmpty t.tim (t.maxAid + 1)

/-- The search for `n1`, from the front. -/
def firstOctet (tim : List UInt8) : ℕ :=
  match tim.findIdx? (· ≠ 0) with
  | some j => j &&& 0xfe
  | none => 0

/-- The search for `n2`, down from the octet before `i`. -/
def lastOctet (tim : List UInt8) (n1 : ℕ) : ℕ → ℕ
  | 0 => n1
  | i + 1 => if i < n1 then n1 else if tim.getD i 0 ≠ 0 then i else lastOctet tim n1 i

/-- `WLAN_EID_TIM`. -/
def eidTim : UInt8 := 5

/-- `AP_DEFAULT_DTIM_PERIOD`. -/
def defaultDtimPeriod : UInt8 := 1

/-- `ieee80211_beacon_add_tim` at the pointer `eid`, of a beacon that starts at `head`: the pointer
it returns, and `tim_cnt_oft`. -/
def ieee80211BeaconAddTim (t : TimInfo) (head : ℕ) (eid : Cursor) : Cursor × UInt16 :=
  let aid0 := 0
  let pos := (eid.put eidTim).put 4
  let timCntOft := UInt16.ofNat (pos.pos - head)
  let pos := (pos.put (UInt8.ofInt t.dtimCount)).put defaultDtimPeriod
  if haveBits t then
    let n1 := firstOctet t.tim
    let n2 := lastOctet t.tim n1 t.tim.length
    let pos := pos.put (UInt8.ofNat (n1 ||| aid0))
    let pos := { pos with mem := copy pos.mem pos.pos ((t.tim.drop n1).take (n2 - n1 + 1)) }
    let pos := pos.poke (eid.pos + 1) (UInt8.ofNat (n2 - n1 + 4))
    ({ pos with pos := pos.pos + (n2 - n1 + 1) }, timCntOft)
  else
    let pos := pos.put (UInt8.ofNat aid0)
    (pos.put (if t.timAllOne then 0xff else 0), timCntOft)

/-! ## What the element says -/

/-- The bit of an AID in a map. -/
def timBit (tim : List UInt8) (aid : ℕ) : Bool := (tim.getD (aid / 8) 0).toNat.testBit (aid % 8)

/-- An octet of the map, as a TIM element at `eid` has it. -/
def decodeOctet (m : Mem) (eid i : ℕ) : UInt8 :=
  let n1 := (m (eid + 4) &&& 0xfe).toNat
  if n1 ≤ i ∧ i < n1 + ((m (eid + 1)).toNat - 3) then m (eid + 5 + (i - n1)) else 0

/-- Between two pointers lies a TIM element that says exactly what a map says. -/
structure TimRight (tim : List UInt8) (eid pos : Cursor) : Prop where
  id : pos.mem eid.pos = eidTim
  element : IsElement eid pos
  decodes : ∀ i, decodeOctet pos.mem eid.pos i = tim.getD i 0

/-- N1, the largest even octet before which no bit is set, fits into the control octet, and the
octets from there to the last one with a bit fit into an element. -/
def Encodable (tim : List UInt8) : Prop :=
  ∃ n1, n1 % 2 = 0 ∧ n1 ≤ 254 ∧ (tim.getD n1 0 ≠ 0 ∨ tim.getD (n1 + 1) 0 ≠ 0) ∧
    ∀ i, tim.getD i 0 ≠ 0 → n1 ≤ i ∧ i ≤ n1 + 251

/-! ## Whether a bit is set -/

variable {tim : List UInt8} {t : TimInfo}

theorem longAt_testBit (tim : List UInt8) (k : ℕ) {j : ℕ} (hj : j < 32) :
    (longAt tim k).testBit j = timBit tim (32 * k + j) := by
  have hbyte : ∀ i, (tim.getD i 0).toNat < 2 ^ 8 := fun i => (tim.getD i 0).toNat_lt
  have hlong : longAt tim k = 2 ^ 8 * (2 ^ 8 * (2 ^ 8 * (tim.getD (4 * k + 3) 0).toNat
      + (tim.getD (4 * k + 2) 0).toNat) + (tim.getD (4 * k + 1) 0).toNat)
      + (tim.getD (4 * k) 0).toNat := by
    rw [longAt, getU32]
    omega
  rw [hlong, Nat.testBit_two_pow_mul_add _ (hbyte _), Nat.testBit_two_pow_mul_add _ (hbyte _),
    Nat.testBit_two_pow_mul_add _ (hbyte _), timBit]
  split
  · rw [show (32 * k + j) / 8 = 4 * k by omega, show (32 * k + j) % 8 = j by omega]
  split
  · rw [show (32 * k + j) / 8 = 4 * k + 1 by omega, show (32 * k + j) % 8 = j - 8 by omega]
  split
  · rw [show (32 * k + j) / 8 = 4 * k + 2 by omega, show (32 * k + j) % 8 = j - 8 - 8 by omega]
  · rw [show (32 * k + j) / 8 = 4 * k + 3 by omega, show (32 * k + j) % 8 = j - 8 - 8 - 8 by omega]

theorem land_mask_eq_zero_iff (w n : ℕ) :
    w &&& (2 ^ n - 1) = 0 ↔ ∀ j < n, w.testBit j = false := by
  constructor
  · intro h j hj
    have hbit : (w &&& (2 ^ n - 1)).testBit j = false := by rw [h, Nat.zero_testBit]
    simpa [Nat.testBit_and, Nat.testBit_two_pow_sub_one, hj] using hbit
  · intro h
    refine Nat.eq_of_testBit_eq fun j => ?_
    rw [Nat.testBit_and, Nat.testBit_two_pow_sub_one, Nat.zero_testBit]
    by_cases hj : j < n
    · rw [h j hj, Bool.false_and]
    · rw [decide_eq_false hj, Bool.and_false]

/-- How many bits of the last `long` count. -/
def lastBits (nbits : ℕ) : ℕ := if nbits % 32 ≠ 0 then nbits % 32 else 32

theorem land_lastWordMask_iff (tim : List UInt8) (k nbits : ℕ) :
    longAt tim k &&& bitmapLastWordMask nbits = 0 ↔
      ∀ j < lastBits nbits, timBit tim (32 * k + j) = false := by
  have hle : lastBits nbits ≤ 32 := by
    unfold lastBits
    split <;> omega
  have hmask : bitmapLastWordMask nbits = 2 ^ lastBits nbits - 1 := by
    unfold bitmapLastWordMask lastBits
    split <;> rfl
  rw [hmask, land_mask_eq_zero_iff]
  exact forall₂_congr fun j hj => by rw [longAt_testBit tim k (by omega)]

theorem longAt_eq_zero_iff (tim : List UInt8) (k : ℕ) :
    longAt tim k = 0 ↔ ∀ j < 32, timBit tim (32 * k + j) = false := by
  have hlt : longAt tim k < 2 ^ 32 := by
    have hbyte : ∀ i, (tim.getD i 0).toNat < 2 ^ 8 := fun i => (tim.getD i 0).toNat_lt
    have h0 := hbyte (4 * k)
    have h1 := hbyte (4 * k + 1)
    have h2 := hbyte (4 * k + 2)
    have h3 := hbyte (4 * k + 3)
    rw [longAt, getU32]
    omega
  rw [← Nat.mod_eq_of_lt hlt, ← Nat.and_two_pow_sub_one_eq_mod, land_mask_eq_zero_iff]
  exact forall₂_congr fun j hj => by rw [longAt_testBit tim k hj]

/-- `bitmap_empty` looks at the bits below `nbits` and at no others. -/
theorem bitmapEmpty_iff (tim : List UInt8) {nbits : ℕ} (hpos : 0 < nbits) :
    bitmapEmpty tim nbits = true ↔ ∀ a < nbits, timBit tim a = false := by
  unfold bitmapEmpty
  split
  next hsmall =>
    have hlast : lastBits nbits = nbits := by
      unfold lastBits
      split <;> omega
    rw [beq_iff_eq, land_lastWordMask_iff, hlast]
    exact forall₂_congr fun a _ => by rw [Nat.mul_zero, Nat.zero_add]
  next hlarge =>
    simp only [Bool.and_eq_true, List.all_eq_true, List.mem_range, beq_iff_eq, Bool.or_eq_true,
      longAt_eq_zero_iff, land_lastWordMask_iff]
    constructor
    · rintro ⟨hwhole, hrest⟩ a ha
      rw [← Nat.div_add_mod a 32]
      by_cases hk : a / 32 < nbits / 32
      · exact hwhole _ hk _ (Nat.mod_lt _ (by decide))
      · have hrem : nbits % 32 ≠ 0 := by omega
        have hlast : lastBits nbits = nbits % 32 := if_pos hrem
        rw [show a / 32 = nbits / 32 by omega]
        exact hrest.resolve_left hrem _ (by omega)
    · intro h
      refine ⟨fun k hk j hj => h _ (by omega), ?_⟩
      by_cases hrem : nbits % 32 = 0
      · exact .inl hrem
      · have hlast : lastBits nbits = nbits % 32 := if_pos hrem
        exact .inr fun j hj => h _ (by omega)

theorem haveBits_iff (t : TimInfo) :
    haveBits t = true ↔ 0 < t.numStaPs ∧ ∃ a ≤ t.maxAid, timBit t.tim a = true := by
  have hempty := bitmapEmpty_iff t.tim (Nat.succ_pos t.maxAid)
  rw [haveBits, Bool.and_eq_true, decide_eq_true_iff, Bool.not_eq_true', ← Bool.not_eq_true, hempty]
  refine and_congr_right fun _ => ?_
  push Not
  simp only [Nat.lt_succ_iff, ne_eq, Bool.not_eq_false]

theorem octet_ne_zero_of_timBit {a : ℕ} (h : timBit tim a = true) : tim.getD (a / 8) 0 ≠ 0 := by
  intro hzero
  rw [timBit, hzero, UInt8.toNat_zero, Nat.zero_testBit] at h
  cases h

/-! ## The octets that are written -/

theorem land_fe (j : ℕ) : j &&& 0xfe = j % 256 - j % 2 := by
  have hsmall : ∀ r < 256, r &&& 0xfe = r - r % 2 := by decide +kernel
  have hle : j &&& 0xfe < 2 ^ 8 := Nat.and_lt_two_pow j (by decide)
  rw [← Nat.mod_eq_of_lt hle, Nat.and_mod_two_pow]
  have hmod := hsmall (j % 2 ^ 8) (Nat.mod_lt _ (by decide))
  rw [show 0xfe % 2 ^ 8 = 0xfe from rfl, hmod]
  omega

theorem firstOctet_spec {a : ℕ} (ha : tim.getD a 0 ≠ 0) :
    ∃ j, tim.getD j 0 ≠ 0 ∧ (∀ i < j, tim.getD i 0 = 0) ∧ firstOctet tim = j % 256 - j % 2 := by
  unfold firstOctet
  cases hfind : tim.findIdx? (· ≠ 0) with
  | none =>
    rw [List.findIdx?_eq_none_iff] at hfind
    have hlt : a < tim.length := by
      by_contra hge
      exact ha (List.getD_eq_default _ _ (Nat.le_of_not_lt hge))
    rw [List.getD_eq_getElem _ _ hlt] at ha
    exact absurd (hfind _ (List.getElem_mem hlt)) (by simpa using ha)
  | some j =>
    obtain ⟨hj, hne, hbefore⟩ := List.findIdx?_eq_some_iff_getElem.mp hfind
    refine ⟨j, ?_, fun i hi => ?_, land_fe j⟩
    · rw [List.getD_eq_getElem _ _ hj]
      simpa using hne
    · have hzero := hbefore i hi
      rw [List.getD_eq_getElem _ _ (hi.trans hj)]
      simpa using hzero

theorem lastOctet_spec (n1 : ℕ) {a i : ℕ} (hn1 : n1 ≤ a) (hai : a < i) (ha : tim.getD a 0 ≠ 0) :
    a ≤ lastOctet tim n1 i ∧ lastOctet tim n1 i < i ∧ tim.getD (lastOctet tim n1 i) 0 ≠ 0 ∧
      ∀ l, lastOctet tim n1 i < l → l < i → tim.getD l 0 = 0 := by
  induction i with
  | zero => omega
  | succ i ih =>
    rw [lastOctet, if_neg (by omega)]
    split
    next hne => exact ⟨by omega, by omega, hne, fun l hl hl' => by omega⟩
    next hzero =>
      have hlt : a < i := by
        rcases Nat.lt_or_ge a i with hlt | hge
        · exact hlt
        · have hai' : a = i := by omega
          subst hai'
          exact absurd ha hzero
      obtain ⟨hle, hlast, hne, hafter⟩ := ih hlt
      refine ⟨hle, by omega, hne, fun l hl hl' => ?_⟩
      rcases Nat.lt_or_ge l i with hli | hli
      · exact hafter l hl hli
      · have hli' : l = i := by omega
        subst hli'
        exact not_not.mp hzero

/-- From the first octet with a bit, rounded down as the code does it, to the last one. -/
structure Span (tim : List UInt8) (n1 n2 : ℕ) : Prop where
  first : ∃ j, tim.getD j 0 ≠ 0 ∧ (∀ i < j, tim.getD i 0 = 0) ∧ n1 = j % 256 - j % 2
  last : tim.getD n2 0 ≠ 0
  after : ∀ i, n2 < i → tim.getD i 0 = 0

theorem span_of_octet {a : ℕ} (ha : tim.getD a 0 ≠ 0) :
    Span tim (firstOctet tim) (lastOctet tim (firstOctet tim) tim.length) := by
  have hlt : ∀ i, tim.getD i 0 ≠ 0 → i < tim.length := fun i hi => by
    by_contra hge
    exact hi (List.getD_eq_default _ _ (Nat.le_of_not_lt hge))
  obtain ⟨j, hj, hbefore, hn1⟩ := firstOctet_spec ha
  obtain ⟨-, -, hne, hafter⟩ := lastOctet_spec (firstOctet tim) (by omega) (hlt j hj) hj
  refine ⟨⟨j, hj, hbefore, hn1⟩, hne, fun i hi => ?_⟩
  by_contra hne'
  exact hne' (hafter i hi (hlt i hne'))

variable {n1 n2 : ℕ}

theorem Span.le_254 (h : Span tim n1 n2) : n1 % 2 = 0 ∧ n1 ≤ 254 := by
  obtain ⟨j, -, -, hn1⟩ := h.first
  omega

theorem Span.le (h : Span tim n1 n2) {i : ℕ} (hi : tim.getD i 0 ≠ 0) : n1 ≤ i ∧ i ≤ n2 := by
  obtain ⟨j, -, hbefore, hn1⟩ := h.first
  have hij : j ≤ i := by
    by_contra hlt
    exact hi (hbefore i (Nat.lt_of_not_le hlt))
  refine ⟨by omega, ?_⟩
  by_contra hlt
  exact hi (h.after i (Nat.lt_of_not_le hlt))

/-- An element holds the octets of a span exactly if it can hold the map. -/
theorem Span.encodable_iff (h : Span tim n1 n2) : Encodable tim ↔ n2 ≤ n1 + 251 := by
  obtain ⟨j, hj, hbefore, hn1⟩ := h.first
  constructor
  · rintro ⟨k, heven, hk, hfirst, hall⟩
    have hkj := (hall j hj).1
    have hjk : j ≤ k + 1 := by
      by_contra hlt
      exact hfirst.elim (fun hne => hne (hbefore k (by omega)))
        fun hne => hne (hbefore (k + 1) (by omega))
    have hn2 := (hall n2 h.last).2
    omega
  · intro hle
    have hjn2 := (h.le hj).2
    have hsmall : j < 256 := by omega
    refine ⟨n1, h.le_254.1, h.le_254.2, ?_, fun i hi => ?_⟩
    · rcases Nat.mod_two_eq_zero_or_one j with heven | hodd
      · exact .inl (by rwa [show n1 = j by omega])
      · exact .inr (by rwa [show n1 + 1 = j by omega])
    · have hi' := h.le hi
      omega

/-- A map of 252 octets always fits. -/
theorem Span.encodable_of_length (h : Span tim n1 n2) (hlen : tim.length ≤ 252) :
    Encodable tim := by
  have hn2 : n2 < tim.length := by
    by_contra hge
    exact h.last (List.getD_eq_default _ _ (Nat.le_of_not_lt hge))
  exact h.encodable_iff.mpr (by omega)

/-- The octets of a span. -/
def spanOctets (tim : List UInt8) (n1 n2 : ℕ) : List UInt8 := (tim.drop n1).take (n2 - n1 + 1)

theorem Span.length_spanOctets (h : Span tim n1 n2) :
    (spanOctets tim n1 n2).length = n2 - n1 + 1 := by
  have hn1 := (h.le h.last).1
  have hn2 : n2 < tim.length := by
    by_contra hge
    exact h.last (List.getD_eq_default _ _ (Nat.le_of_not_lt hge))
  rw [spanOctets, List.length_take, List.length_drop]
  omega

theorem Span.getD_spanOctets (h : Span tim n1 n2) {i : ℕ} (hi : n1 ≤ i) :
    (spanOctets tim n1 n2).getD (i - n1) 0 = tim.getD i 0 := by
  rw [spanOctets, List.getD_eq_getElem?_getD, List.getElem?_take, List.getD_eq_getElem?_getD]
  split
  · rw [List.getElem?_drop, Nat.add_sub_cancel' hi]
  · rw [Option.getD_none, ← List.getD_eq_getElem?_getD, h.after i (by omega)]

/-! ## The element -/

/-- The element with a bitmap control octet and a partial bitmap. -/
def timElement (t : TimInfo) (len ctl : UInt8) (octets : List UInt8) : List UInt8 :=
  eidTim :: len :: UInt8.ofInt t.dtimCount :: defaultDtimPeriod :: ctl :: octets

theorem beaconAddTim_eq (head : ℕ) (eid : Cursor) (hbits : haveBits t = true)
    (hn1 : firstOctet t.tim = n1) (hn2 : lastOctet t.tim n1 t.tim.length = n2)
    (hspan : Span t.tim n1 n2) :
    (ieee80211BeaconAddTim t head eid).1 = eid.write (timElement t (UInt8.ofNat (n2 - n1 + 4))
      (UInt8.ofNat n1) (spanOctets t.tim n1 n2)) := by
  have hpoke := eid.poke_write (UInt8.ofNat (n2 - n1 + 4))
    (timElement t 4 (UInt8.ofNat n1) (spanOctets t.tim n1 n2)) (i := 1) (by simp [timElement])
  have hset : (timElement t 4 (UInt8.ofNat n1) (spanOctets t.tim n1 n2)).set 1
      (UInt8.ofNat (n2 - n1 + 4)) = timElement t (UInt8.ofNat (n2 - n1 + 4)) (UInt8.ofNat n1)
        (spanOctets t.tim n1 n2) := rfl
  rw [hset] at hpoke
  have hhead : ((((eid.put eidTim).put 4).put (UInt8.ofInt t.dtimCount)).put
      defaultDtimPeriod).put (UInt8.ofNat n1) = eid.write (timElement t 4 (UInt8.ofNat n1) []) := by
    simp [timElement]
  rw [← hpoke]
  simp only [ieee80211BeaconAddTim, if_pos hbits, hn1, hn2, Nat.or_zero, hhead]
  have hcopy := (eid.write (timElement t 4 (UInt8.ofNat n1) [])).write_of_length
    (spanOctets t.tim n1 n2) hspan.length_spanOctets
  rw [Cursor.write_write] at hcopy
  exact congrArg (fun c : Cursor => c.poke (eid.pos + 1) (UInt8.ofNat (n2 - n1 + 4))) hcopy

theorem decodeOctet_write (eid : Cursor) {len ctl : UInt8} {octets : List UInt8}
    (hlen : len.toNat = octets.length + 3) (i : ℕ) :
    decodeOctet (eid.write (timElement t len ctl octets)).mem eid.pos i =
      if (ctl &&& 0xfe).toNat ≤ i then octets.getD (i - (ctl &&& 0xfe).toNat) 0 else 0 := by
  set bs := timElement t len ctl octets with hbs
  have hl : (eid.write bs).mem (eid.pos + 1) = len :=
    eid.write_getElem bs (i := 1) (by simp [hbs, timElement])
  have hc : (eid.write bs).mem (eid.pos + 4) = ctl :=
    eid.write_getElem bs (i := 4) (by simp [hbs, timElement])
  rw [decodeOctet, hl, hc, hlen, Nat.add_sub_cancel]
  set n1 := (ctl &&& 0xfe).toNat
  by_cases hlow : n1 ≤ i
  · rw [if_pos hlow]
    by_cases hi : i < n1 + octets.length
    · have hk : i - n1 < octets.length := by omega
      rw [if_pos ⟨hlow, hi⟩, List.getD_eq_getElem _ _ hk, Nat.add_assoc, Nat.add_comm 5]
      exact eid.write_getElem bs (i := i - n1 + 5) (by simpa [hbs, timElement] using hk)
    · rw [if_neg fun h => hi h.2, List.getD_eq_default _ _ (by omega)]
  · rw [if_neg fun h => hlow h.1, if_neg hlow]

/-- What is written is right exactly if it has room. -/
theorem Span.timRight_iff (h : Span t.tim n1 n2) (eid : Cursor) :
    TimRight t.tim eid (eid.write (timElement t (UInt8.ofNat (n2 - n1 + 4)) (UInt8.ofNat n1)
      (spanOctets t.tim n1 n2))) ↔ n2 ≤ n1 + 251 := by
  have hoctets := h.length_spanOctets
  constructor
  · intro hright
    have helement := (isElement_write eid _ _ _).mp hright.element
    simp only [List.length_cons, UInt8.toNat_ofNat', hoctets] at helement
    omega
  · intro hle
    have hlen : (UInt8.ofNat (n2 - n1 + 4)).toNat = (spanOctets t.tim n1 n2).length + 3 := by
      rw [UInt8.toNat_ofNat', hoctets, Nat.mod_eq_of_lt (by omega)]
    have hctl : (UInt8.ofNat n1 &&& 0xfe).toNat = n1 := by
      have hn1 := h.le_254
      rw [UInt8.toNat_and, UInt8.toNat_ofNat', show (0xfe : UInt8).toNat = 0xfe from rfl, land_fe]
      omega
    refine ⟨eid.write_getElem (i := 0) _ (by simp [timElement]), ?_, fun i => ?_⟩
    · exact (isElement_write eid _ _ _).mpr (by simpa using hlen)
    · rw [decodeOctet_write eid hlen, hctl]
      split
      next hi => exact h.getD_spanOctets hi
      next hi =>
        by_contra hne
        exact hi (h.le (Ne.symm hne)).1

/-- With a bit among those that `have_bits` looks at, the element is right if one can be. -/
theorem beaconAddTim_encodable (head : ℕ) (eid : Cursor) (hbits : haveBits t = true) :
    (TimRight t.tim eid (ieee80211BeaconAddTim t head eid).1 ↔ Encodable t.tim) ∧
      (t.tim.length ≤ 252 → Encodable t.tim) := by
  obtain ⟨a, -, ha⟩ := ((haveBits_iff t).mp hbits).2
  have hspan := span_of_octet (octet_ne_zero_of_timBit ha)
  have hright := hspan.timRight_iff (t := t) eid
  rw [← beaconAddTim_eq head eid hbits rfl rfl hspan, ← hspan.encodable_iff] at hright
  exact ⟨hright, hspan.encodable_of_length⟩

/-- While stations sleep and one of the bits of the AIDs up to `gMaxAID` is set, the element says
exactly what the map says if and only if an element can; a map of up to 252 octets always fits. -/
theorem ieee80211BeaconAddTim_right_iff (t : TimInfo) (head : ℕ) (eid : Cursor)
    (hps : 0 < t.numStaPs) (hbit : ∃ a ≤ t.maxAid, timBit t.tim a = true) :
    (TimRight t.tim eid (ieee80211BeaconAddTim t head eid).1 ↔ Encodable t.tim) ∧
      (t.tim.length ≤ 252 → TimRight t.tim eid (ieee80211BeaconAddTim t head eid).1) := by
  have hbits := (haveBits_iff t).mpr ⟨hps, hbit⟩
  obtain ⟨hright, hlen⟩ := beaconAddTim_encodable head eid hbits
  exact ⟨hright, fun h => hright.mpr (hlen h)⟩

/-- Bits in the fourth and in the seventh octet. -/
def twoSleepers : TimInfo where
  numStaPs := 2
  tim := [0, 0, 0, 8, 0, 0, 1, 0]
  maxAid := 63
  dtimCount := 0
  timAllOne := false

theorem ieee80211BeaconAddTim_right_twoSleepers :
    0 < twoSleepers.numStaPs ∧ (∃ a ≤ twoSleepers.maxAid, timBit twoSleepers.tim a = true) ∧
      TimRight twoSleepers.tim blank (ieee80211BeaconAddTim twoSleepers 0 blank).1 :=
  ⟨by decide, ⟨27, by decide, by decide⟩,
    (ieee80211BeaconAddTim_right_iff twoSleepers 0 blank (by decide)
      ⟨27, by decide, by decide⟩).2 (by decide)⟩

/-- The map of 2047 AIDs, with the bits of AID 1 and of AID 2016. -/
def farApart : TimInfo where
  numStaPs := 2
  tim := 2 :: List.replicate 251 0 ++ [1, 0, 0, 0]
  maxAid := 2047
  dtimCount := 0
  timAllOne := false

/-- The map of eight AIDs, with a bit that is the bit of none. -/
def strayBit : TimInfo where
  numStaPs := 1
  tim := [0, 0, 4, 0]
  maxAid := 8
  dtimCount := 0
  timAllOne := false

/-- An element cannot reach from octet 0 to octet 252, and a bit above `gMaxAID` is not looked
for. -/
theorem not_timRight_farApart_strayBit :
    (0 < farApart.numStaPs ∧ timBit farApart.tim 1 = true ∧ timBit farApart.tim 2016 = true ∧
      ¬ TimRight farApart.tim blank (ieee80211BeaconAddTim farApart 0 blank).1) ∧
    (0 < strayBit.numStaPs ∧ timBit strayBit.tim 18 = true ∧
      ¬ TimRight strayBit.tim blank (ieee80211BeaconAddTim strayBit 0 blank).1) := by
  have hone : timBit farApart.tim 1 = true := by decide
  have hfar : farApart.tim.getD 252 0 ≠ 0 := by decide +kernel
  refine ⟨⟨by decide, hone, by decide +kernel, fun hright => ?_⟩, by decide, by decide,
    fun hright => ?_⟩
  · have hbits : haveBits farApart = true :=
      (haveBits_iff farApart).mpr ⟨by decide, 1, by decide, hone⟩
    obtain ⟨n1, -, -, -, hall⟩ := (beaconAddTim_encodable 0 blank hbits).1.mp hright
    have hlow := (hall 0 (by decide)).1
    have hhigh := (hall 252 hfar).2
    omega
  · have hdecoded := hright.decodes 2
    revert hdecoded
    decide +kernel

end Fullmac.Ap.Beacon
