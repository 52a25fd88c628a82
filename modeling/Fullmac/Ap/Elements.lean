import Fullmac.Lib.Reads
import Fullmac.Lib.Tlv

/-!
# Information elements

Reference: `host/ap/common/ieee802_11_common.c`, `ieee802_11_parse_vendor_specific` and
`ieee802_11_parse_elems`; `host/core/ieee80211.h`, `enum ieee80211_eid`.

The parser walks over the elements behind the fixed fields of a management frame and remembers, for
each kind, where the last one stands. It reads nothing beyond the length it is given
(`inside_parseElems`), and so does whoever keeps to the length of an element it has found
(`parseElems_found`). It accepts exactly what elements fill (`parseElems_accepts_iff`), and is left
with the last of each kind (`parseElems_of_fills`).
-/

namespace Fullmac.Ap

open Bytes (Mem slice)
open Reads
open Tlv

/-- The pointers of `struct ieee802_11_elems`. -/
inductive ElemKind
  | ssid | suppRates | fhParams | dsParams | cfParams | tim | ibssParams | challenge | erpInfo
  | extSuppRates | rsnIe | powerCap | suppChannels | mdie | ftie | timeoutInt | htCapabilities
  | htOperation | linkId | interworking | extCapab | wpaIe | wmm | wmmTspec | wpsIe | vendorHtCap
deriving DecidableEq, Repr

/-- `struct ieee802_11_elems`: where the value of each element stands, if there is one. -/
abbrev Elements := ElemKind → Option Elem

/-- `ParseRes`. -/
inductive ParseRes
  | ok | unknown | failed
deriving DecidableEq, Repr

/-- The cases of the `switch` that only remember where the element stands. -/
def eidKind (id : UInt8) : Option ElemKind :=
  match id.toNat with
  | 0 => some .ssid
  | 1 => some .suppRates
  | 2 => some .fhParams
  | 3 => some .dsParams
  | 4 => some .cfParams
  | 5 => some .tim
  | 6 => some .ibssParams
  | 16 => some .challenge
  | 33 => some .powerCap
  | 36 => some .suppChannels
  | 42 => some .erpInfo
  | 45 => some .htCapabilities
  | 48 => some .rsnIe
  | 50 => some .extSuppRates
  | 54 => some .mdie
  | 55 => some .ftie
  | 56 => some .timeoutInt
  | 61 => some .htOperation
  | 107 => some .interworking
  | 127 => some .extCapab
  | _ => none

/-- `WLAN_EID_LINK_ID`. -/
def eidLinkId : UInt8 := 101

/-- `WLAN_EID_VENDOR_SPECIFIC`. -/
def eidVendorSpecific : UInt8 := 221

/-- `OUI_MICROSOFT`. -/
def ouiMicrosoft : List UInt8 := [0x00, 0x50, 0xf2]

/-- `OUI_BROADCOM`. -/
def ouiBroadcom : List UInt8 := [0x00, 0x90, 0x4c]

/-- `ieee802_11_parse_vendor_specific`: the pointer that is set, if any. -/
def parseVendorSpecific (pos elen : ℕ) : Reads (Option ElemKind) :=
  if elen < 4 then pure none
  else do
    let oui ← readSlice pos 3
    if oui = ouiMicrosoft then do
      let type ← read (pos + 3)
      if type = 1 then pure (some .wpaIe)
      else if type = 2 then
        if elen < 5 then pure none
        else do
          let subtype ← read (pos + 4)
          if subtype = 0 ∨ subtype = 1 then pure (some .wmm)
          else if subtype = 2 then pure (some .wmmTspec)
          else pure none
      else if type = 4 then pure (some .wpsIe)
      else pure none
    else if oui = ouiBroadcom then do
      let type ← read (pos + 3)
      if type = 0x33 then pure (some .vendorHtCap) else pure none
    else pure none

/-- The `switch` of `ieee802_11_parse_elems`: the pointer that is set, if any, and whether the
element is counted as unknown. -/
def parseElem (id : UInt8) (pos elen : ℕ) : Reads (Option ElemKind × Bool) :=
  if id = eidVendorSpecific then do
    let kind ← parseVendorSpecific pos elen
    pure (kind, kind.isNone)
  else if id = eidLinkId then pure (if elen < 18 then none else some .linkId, false)
  else pure (eidKind id, (eidKind id).isNone)

/-- The kind of an element. -/
def kindAt (m : Mem) (e : Elem) : Option ElemKind := (val m (parseElem e.id e.off e.len)).1

/-- The loop of `ieee802_11_parse_elems`. -/
def parseLoop (left pos : ℕ) (elems : Elements) (unknown : Bool) : Reads (ParseRes × Elements) :=
  if _h : 2 ≤ left then do
    let id ← read pos
    let elen ← read (pos + 1)
    if left - 2 < elen.toNat then pure (.failed, elems)
    else do
      let r ← parseElem id (pos + 2) elen.toNat
      parseLoop (left - 2 - elen.toNat) (pos + 2 + elen.toNat)
        (put elems r.1 ⟨id, pos + 2, elen.toNat⟩) (unknown || r.2)
  else pure (if left ≠ 0 then .failed else if unknown then .unknown else .ok, elems)
termination_by left

/-- `ieee802_11_parse_elems`. -/
def parseElems (start len : ℕ) : Reads (ParseRes × Elements) := do
  hand start len
  parseLoop len start (fun _ => none) false

/-! ## What is read -/

theorem inside_parseVendorSpecific {n : ℕ} {m : Mem} {pos elen : ℕ} (h : pos + elen ≤ n) :
    Inside n m (parseVendorSpecific pos elen) := by
  simp only [parseVendorSpecific, inside_ite, inside_bind, inside_readSlice, inside_read,
    inside_pure, implies_true, and_true, true_and]
  intro h4
  refine ⟨.inr (by omega), fun _ => ⟨by omega, fun _ _ h5 => by omega⟩, fun _ _ => by omega⟩

theorem inside_parseElem {n : ℕ} {m : Mem} {id : UInt8} {pos elen : ℕ} (h : pos + elen ≤ n) :
    Inside n m (parseElem id pos elen) := by
  simp only [parseElem, inside_ite, inside_bind, inside_pure, implies_true, and_true]
  exact fun _ => inside_parseVendorSpecific h

/-- What is left is too short for an element. -/
theorem parseLoop_of_lt {left : ℕ} (h : left < 2) (pos : ℕ) (elems : Elements) (unknown : Bool) :
    parseLoop left pos elems unknown
      = pure (if left ≠ 0 then .failed else if unknown then .unknown else .ok, elems) := by
  rw [parseLoop, dif_neg (Nat.not_le_of_lt h)]

/-- The element does not fit. -/
theorem val_parseLoop_failed {m : Mem} {left pos : ℕ} (h : 2 ≤ left)
    (hfit : left - 2 < (elemAt m pos).len) (elems : Elements) (unknown : Bool) :
    val m (parseLoop left pos elems unknown) = (.failed, elems) := by
  have hread : left - 2 < (val m (read (pos + 1))).toNat := hfit
  rw [parseLoop, dif_pos h, val_bind, val_bind, val_ite, if_pos hread, val_pure]

/-- The element is sorted in and the rest follows. -/
theorem val_parseLoop_cons {m : Mem} {left pos : ℕ} (h : 2 ≤ left)
    (hfit : (elemAt m pos).len ≤ left - 2) (elems : Elements) (unknown : Bool) :
    ∃ unknown', val m (parseLoop left pos elems unknown)
      = val m (parseLoop (left - 2 - (elemAt m pos).len) (pos + 2 + (elemAt m pos).len)
          (store (kindAt m) elems (elemAt m pos)) unknown') := by
  have hread : ¬ left - 2 < (val m (read (pos + 1))).toNat := Nat.not_lt_of_le hfit
  rw [parseLoop, dif_pos h, val_bind, val_bind, val_ite, if_neg hread, val_bind]
  exact ⟨_, rfl⟩

theorem inside_parseLoop {n : ℕ} {m : Mem} {left pos : ℕ} (h : pos + left ≤ n)
    (elems : Elements) (unknown : Bool) : Inside n m (parseLoop left pos elems unknown) := by
  induction left using Nat.strong_induction_on generalizing pos elems unknown with
  | h left ih =>
    by_cases h2 : 2 ≤ left
    · rw [parseLoop, dif_pos h2]
      simp only [inside_bind, inside_read, inside_ite, inside_pure, implies_true, true_and]
      refine ⟨by omega, by omega, fun hfit => ⟨inside_parseElem ?_, ih _ ?_ ?_ _ _⟩⟩ <;> omega
    · rw [parseLoop_of_lt (Nat.lt_of_not_le h2)]
      exact inside_pure n m _

/-- The parser reads nothing beyond the length it is given, so it is inside if that is. -/
theorem inside_parseElems {n : ℕ} {m : Mem} {start len : ℕ} (hstart : start ≤ n) :
    Inside n m (parseElems start len) ↔ start + len ≤ n := by
  rw [parseElems, inside_bind, inside_hand]
  constructor
  · rintro ⟨hlen, -⟩
    omega
  · intro h
    exact ⟨by omega, inside_parseLoop h _ _⟩

/-! ## What is found -/

/-- An element of a kind stands in the `len` bytes from `start` on. -/
structure Found (m : Mem) (start len : ℕ) (k : ElemKind) (e : Elem) : Prop where
  kind : kindAt m e = some k
  elem : elemAt m (e.off - 2) = e
  low : start + 2 ≤ e.off
  high : e.off + e.len ≤ start + len

/-- Every element that is remembered was there before or stands in what is left. -/
theorem parseLoop_found {m : Mem} {left pos : ℕ} {elems : Elements} {unknown : Bool}
    {k : ElemKind} {e : Elem} (h : (val m (parseLoop left pos elems unknown)).2 k = some e) :
    elems k = some e ∨ Found m pos left k e := by
  induction left using Nat.strong_induction_on generalizing pos elems unknown with
  | h left ih =>
    by_cases h2 : 2 ≤ left
    · by_cases hfit : (elemAt m pos).len ≤ left - 2
      · obtain ⟨unknown', heq⟩ := val_parseLoop_cons h2 hfit elems unknown
        rw [heq] at h
        rcases ih _ (by omega) h with hold | hfound
        · rcases store_cases hold with ⟨rfl, hkind⟩ | hold
          · have hoff : (elemAt m pos).off = pos + 2 := rfl
            exact .inr ⟨hkind, by rw [hoff, Nat.add_sub_cancel], by omega, by omega⟩
          · exact .inl hold
        · have hlow := hfound.low
          have hhigh := hfound.high
          exact .inr ⟨hfound.kind, hfound.elem, by omega, by omega⟩
      · rw [val_parseLoop_failed h2 (Nat.lt_of_not_le hfit)] at h
        exact .inl h
    · rw [parseLoop_of_lt (Nat.lt_of_not_le h2)] at h
      exact .inl h

/-- The elements found stand in what was parsed, whether all of it was accepted or not. -/
theorem parseElems_found {m : Mem} {start len : ℕ} {k : ElemKind} {e : Elem}
    (h : (val m (parseElems start len)).2 k = some e) : Found m start len k e := by
  rcases parseLoop_found h with hold | hfound
  · exact absurd hold (by simp)
  · exact hfound

/-- Vendor specific elements with a pointer of their own. -/
def ElemKind.IsVendor (k : ElemKind) : Prop :=
  k = .wpaIe ∨ k = .wmm ∨ k = .wmmTspec ∨ k = .wpsIe ∨ k = .vendorHtCap

theorem parseVendorSpecific_eq_some {m : Mem} {pos elen : ℕ} {k : ElemKind}
    (h : val m (parseVendorSpecific pos elen) = some k) : 4 ≤ elen ∧ k.IsVendor := by
  simp only [parseVendorSpecific, val_ite, val_bind, val_pure] at h
  split_ifs at h with h4
  all_goals simp only [Option.some.injEq] at h
  all_goals
    subst h
    exact ⟨Nat.le_of_not_lt h4, by simp [ElemKind.IsVendor]⟩

theorem eidKind_eq_some {id : UInt8} {k : ElemKind} (h : eidKind id = some k) :
    ¬ k.IsVendor ∧ (k = .rsnIe → id = 48) := by
  rw [eidKind] at h
  split at h
  all_goals simp only [Option.some.injEq, reduceCtorEq] at h
  all_goals
    subst h
    refine ⟨by simp [ElemKind.IsVendor], fun hk => ?_⟩
    cases hk
  -- Only the case of the RSN element is left.
  exact UInt8.toNat_inj.mp ‹id.toNat = 48›

/-- A kind comes from the bytes of a vendor, or from the number of the element. -/
theorem kindAt_cases {m : Mem} {e : Elem} {k : ElemKind} (h : kindAt m e = some k) :
    (4 ≤ e.len ∧ k.IsVendor) ∨ k = .linkId ∨ eidKind e.id = some k := by
  simp only [kindAt, parseElem, val_ite, val_bind, val_pure] at h
  split_ifs at h with hvendor hlink
  · exact .inl (parseVendorSpecific_eq_some h)
  · exact .inr (.inl (Option.some.inj h).symm)
  · exact .inr (.inr h)

/-- An RSN element says so in its first byte. -/
theorem Found.rsnIe {m : Mem} {start len : ℕ} {e : Elem} (h : Found m start len .rsnIe e) :
    m (e.off - 2) = 48 := by
  have hid : m (e.off - 2) = e.id := congrArg Elem.id h.elem
  rw [hid]
  rcases kindAt_cases h.kind with ⟨-, hvendor⟩ | hlink | heid
  · exact absurd hvendor (by simp [ElemKind.IsVendor])
  · exact absurd hlink (by simp)
  · exact (eidKind_eq_some heid).2 rfl

/-- A WPA element has four bytes at least. -/
theorem Found.wpaIe {m : Mem} {start len : ℕ} {e : Elem} (h : Found m start len .wpaIe e) :
    4 ≤ e.len := by
  rcases kindAt_cases h.kind with ⟨h4, -⟩ | hlink | heid
  · exact h4
  · exact absurd hlink (by simp)
  · exact absurd (.inl rfl) (eidKind_eq_some heid).1

theorem parseLoop_of_fills {m : Mem} {left pos : ℕ} {es : List Elem} (h : Fills m pos left es)
    (elems : Elements) (unknown : Bool) :
    (val m (parseLoop left pos elems unknown)).1 ≠ .failed ∧
      (val m (parseLoop left pos elems unknown)).2 = es.foldl (store (kindAt m)) elems := by
  induction h generalizing elems unknown with
  | nil pos =>
    rw [parseLoop_of_lt (by omega)]
    cases unknown <;> simp
  | @cons pos left es hhead hfit _ ih =>
    obtain ⟨unknown', heq⟩ := val_parseLoop_cons hhead hfit elems unknown
    rw [heq, List.foldl_cons]
    exact ih _ unknown'

theorem fills_of_parseLoop {m : Mem} {left pos : ℕ} {elems : Elements} {unknown : Bool}
    (h : (val m (parseLoop left pos elems unknown)).1 ≠ .failed) : ∃ es, Fills m pos left es := by
  induction left using Nat.strong_induction_on generalizing pos elems unknown with
  | h left ih =>
    by_cases h2 : 2 ≤ left
    · by_cases hfit : (elemAt m pos).len ≤ left - 2
      · obtain ⟨unknown', heq⟩ := val_parseLoop_cons h2 hfit elems unknown
        rw [heq] at h
        obtain ⟨es, hes⟩ := ih _ (by omega) h
        exact ⟨_, .cons h2 hfit hes⟩
      · rw [val_parseLoop_failed h2 (Nat.lt_of_not_le hfit)] at h
        exact absurd rfl h
    · rw [parseLoop_of_lt (Nat.lt_of_not_le h2)] at h
      obtain rfl : left = 0 := by
        by_contra h0
        simp [h0] at h
      exact ⟨[], .nil pos⟩

/-- What the elements fill is accepted, with the last of each kind. -/
theorem parseElems_of_fills {m : Mem} {start len : ℕ} {es : List Elem}
    (h : Fills m start len es) :
    (val m (parseElems start len)).1 ≠ .failed ∧
      (val m (parseElems start len)).2 = lastOf (kindAt m) es := by
  obtain ⟨hres, hel⟩ := parseLoop_of_fills h (fun _ => none) false
  exact ⟨hres, hel.trans (funext (foldl_store (kindAt m) es))⟩

/-- Nothing else is, and there is one way to read it. -/
theorem parseElems_accepts_iff {m : Mem} {start len : ℕ} :
    (val m (parseElems start len)).1 ≠ .failed ↔ ∃! es, Fills m start len es := by
  constructor
  · intro h
    obtain ⟨es, hes⟩ := fills_of_parseLoop h
    exact ⟨es, hes, fun _ hes' => hes'.unique hes⟩
  · rintro ⟨es, hes, -⟩
    exact (parseElems_of_fills hes).1

end Fullmac.Ap
