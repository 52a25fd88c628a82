import Fullmac.Lib.Writer
import Fullmac.Reg.Channels

/-!
# The rates in a beacon

Reference: `host/ap/ieee802_11_mgmt.c`, `hostapd_eid_supp_rates` and `hostapd_eid_ext_supp_rates`.

The Supported Rates element has room for eight octets; what is left goes into the Extended Supported
Rates element, behind the other. Two functions write the two, and each finds out for itself where
the list is cut. They agree in the 2.4 GHz band, but for the case that the selector of the HT
membership is the eighth octet: the first function counts it and does not write it, the second takes
it for written. In the 5 GHz band the first function leaves out the first four rates and the second
does not, so that the second begins four rates too early.
-/

namespace Fullmac.Ap.Beacon

open Bytes Writer
open Reg (Is5gBand)
open Writer.Cursor (blank)

/-! ## The writers -/

/-- `struct ieee80211_rate`. -/
structure Rate where
  bitrate : UInt16
  flags : UInt16

/-- `pRates`, of which there are `nNumrates`, an 8-bit number. -/
structure RateList where
  rates : List Rate
  short : rates.length < 256

/-- What the writers of the rates read of `ApInfo_st` and of its configuration. -/
structure RateCfg where
  pRates : Option RateList
  eApMode : ℕ
  b80211n : Bool
  bRequireHt : Bool
  currentChannel : ℕ

/-- `WLAN_EID_SUPP_RATES`. -/
def eidSuppRates : UInt8 := 1

/-- `WLAN_EID_EXT_SUPP_RATES`. -/
def eidExtSuppRates : UInt8 := 50

/-- `0x80 | BSS_MEMBERSHIP_SELECTOR_HT_PHY`. -/
def htSelector : UInt8 := 0x80 ||| 127

/-- The HT membership selector is required. -/
def RateCfg.needHt (cfg : RateCfg) : Bool := cfg.b80211n && cfg.bRequireHt

/-- The octet of a rate; `iMandatoryValue` is the flag of the rates that are mandatory in the mode
of the access point. -/
def rateOctet (cfg : RateCfg) (r : Rate) : UInt8 :=
  let octet := r.bitrate.toUInt8
  if r.flags.toNat &&& 1 <<< cfg.eApMode ≠ 0 then octet ||| 0x80 else octet

/-- The loop of `hostapd_eid_supp_rates`, at the rates from index `i` on. -/
def suppLoop (cfg : RateCfg) (num : ℤ) : List Rate → ℤ → Cursor → Cursor
  | [], _, pos => pos
  | r :: rs, count, pos =>
    if count < num then suppLoop cfg num rs (count + 1) (pos.put (rateOctet cfg r)) else pos

/-- `hostapd_eid_supp_rates`. -/
def hostapdEidSuppRates (cfg : RateCfg) (eid : Cursor) : Cursor :=
  match cfg.pRates with
  | none => eid
  | some list =>
    let nNumrates := list.rates.length
    let num : ℤ := if Is5gBand cfg.currentChannel then nNumrates - 4 else nNumrates
    let num := if cfg.needHt then num + 1 else num
    let num := if 8 < num then 8 else num
    let pos := (eid.put eidSuppRates).put (UInt8.ofInt num)
    let i := if Is5gBand cfg.currentChannel then 4 else 0
    let pos := suppLoop cfg num (list.rates.drop i) 0 pos
    if cfg.needHt && num < 8 then pos.put htSelector else pos

/-- The loop of `hostapd_eid_ext_supp_rates`: the number of rates counted, and the pointer. -/
def extLoop (cfg : RateCfg) (num : ℤ) : List Rate → ℤ → Cursor → ℤ × Cursor
  | [], count, pos => (count, pos)
  | r :: rs, count, pos =>
    if count < num + 8 then
      if count + 1 ≤ 8 then extLoop cfg num rs (count + 1) pos
      else extLoop cfg num rs (count + 1) (pos.put (rateOctet cfg r))
    else (count, pos)

/-- `hostapd_eid_ext_supp_rates`. -/
def hostapdEidExtSuppRates (cfg : RateCfg) (eid : Cursor) : Cursor :=
  match cfg.pRates with
  | none => eid
  | some list =>
    let num : ℤ := list.rates.length
    let num := if cfg.needHt then num + 1 else num
    if num ≤ 8 then eid
    else
      let num := num - 8
      let pos := (eid.put eidExtSuppRates).put (UInt8.ofInt num)
      let st := extLoop cfg num list.rates 0 pos
      if cfg.needHt && 8 < st.1 + 1 then st.2.put htSelector else st.2

/-! ## What the elements should hold -/

/-- The rates of the band: all, or all but the first four. -/
def bandRates (cfg : RateCfg) (rates : List Rate) : List Rate :=
  if Is5gBand cfg.currentChannel then rates.drop 4 else rates

/-- The selector, if it is required. -/
def selector (cfg : RateCfg) : List UInt8 := if cfg.needHt then [htSelector] else []

/-- An element with at most eight octets and the element with the rest, if there is a rest, hold
these rates in their order and, somewhere among them, the selector. -/
structure RatesTiled (rates sel : List UInt8) (eid pos eid' pos' : Cursor) : Prop where
  supp : IsElement eid pos
  ext : pos' = eid' ∨ IsElement eid' pos'
  short : (body eid pos).length ≤ 8
  tiles : ∃ rs rs', rs ++ rs' = rates ∧ body eid pos ++ body eid' pos' = rs ++ sel ++ rs'

/-- The two elements that are written hold the rates of the band. -/
def RatesRight (cfg : RateCfg) (list : RateList) (eid eid' : Cursor) : Prop :=
  RatesTiled ((bandRates cfg list.rates).map (rateOctet cfg)) (selector cfg)
    eid (hostapdEidSuppRates cfg eid) eid' (hostapdEidExtSuppRates cfg eid')

/-! ## What is written -/

variable {cfg : RateCfg} {list : RateList}

theorem suppLoop_eq (cfg : RateCfg) (num : ℤ) (rs : List Rate) (count : ℤ) (pos : Cursor) :
    suppLoop cfg num rs count pos =
      pos.write ((rs.take (num - count).toNat).map (rateOctet cfg)) := by
  induction rs generalizing count pos with
  | nil => simp [suppLoop]
  | cons r rs ih =>
    rw [suppLoop]
    split
    next hlt =>
      obtain ⟨k, hk⟩ := Int.eq_ofNat_of_zero_le (show 0 ≤ num - count - 1 by omega)
      rw [ih, show (num - (count + 1)).toNat = k by omega,
        show (num - count).toNat = k + 1 by omega]
      simp
    next hge =>
      rw [Int.toNat_of_nonpos (by omega)]
      simp

/-- The loop leaves out the first eight rates and, as `num` counts all that follow, writes these. -/
theorem extLoop_eq (cfg : RateCfg) (num : ℤ) (rs : List Rate) (count : ℕ) (pos : Cursor)
    (hnum : (count + rs.length : ℤ) ≤ num + 8) :
    extLoop cfg num rs count pos =
      ((count + rs.length : ℤ), pos.write ((rs.drop (8 - count)).map (rateOctet cfg))) := by
  induction rs generalizing count pos with
  | nil => simp [extLoop]
  | cons r rs ih =>
    rw [List.length_cons] at hnum
    rw [extLoop, if_pos (by omega)]
    have hnext : ((count : ℤ) + 1) = ((count + 1 : ℕ) : ℤ) := by omega
    have hrest : ((count + 1 : ℕ) + rs.length : ℤ) ≤ num + 8 := by omega
    rw [hnext]
    split
    next hle =>
      rw [ih _ _ hrest, show 8 - count = 8 - (count + 1) + 1 by omega, List.drop_succ_cons,
        List.length_cons]
      congr 1
      omega
    next hgt =>
      rw [ih _ _ hrest, show 8 - (count + 1) = 0 by omega, show 8 - count = 0 by omega,
        List.length_cons]
      simp only [List.drop_zero, Cursor.put_eq_write, Cursor.write_write, List.map_cons,
        List.singleton_append]
      congr 1
      omega

theorem ofInt_natCast (k : ℕ) : UInt8.ofInt k = UInt8.ofNat k := by
  rw [← UInt8.toNat_inj, UInt8.ofInt, UInt8.toNat_ofNat', UInt8.toNat_ofNat']
  omega

theorem selector_length_le (cfg : RateCfg) : (selector cfg).length ≤ 1 := by
  unfold selector
  split <;> simp

theorem bandRates_length (cfg : RateCfg) (rates : List Rate) : (bandRates cfg rates).length =
    if Is5gBand cfg.currentChannel then rates.length - 4 else rates.length := by
  unfold bandRates
  split
  · exact List.length_drop
  · rfl

/-- The octets of the Supported Rates element: the selector is missing if it would be the eighth. -/
def suppBody (cfg : RateCfg) (rates : List Rate) : List UInt8 :=
  ((bandRates cfg rates).take 8).map (rateOctet cfg) ++
    if (bandRates cfg rates).length + (selector cfg).length < 8 then selector cfg else []

/-- The length that the Supported Rates element claims. -/
def suppNum (cfg : RateCfg) (rates : List Rate) : ℤ :=
  min 8 ((if Is5gBand cfg.currentChannel then (rates.length : ℤ) - 4 else rates.length) +
    (selector cfg).length)

theorem hostapdEidSuppRates_eq (hlist : cfg.pRates = some list) (eid : Cursor) :
    hostapdEidSuppRates cfg eid = eid.write (eidSuppRates ::
      UInt8.ofInt (suppNum cfg list.rates) :: suppBody cfg list.rates) := by
  have hs1 := selector_length_le cfg
  have hb := bandRates_length cfg list.rates
  set b := (bandRates cfg list.rates).length with hbdef
  set s := (selector cfg).length with hs
  set z : ℤ := if Is5gBand cfg.currentChannel then (list.rates.length : ℤ) - 4
    else list.rates.length with hz
  have hzb : z = b ∨ (z < 0 ∧ b = 0) := by
    by_cases h5 : Is5gBand cfg.currentChannel
    · rw [if_pos h5] at hz hb
      omega
    · rw [if_neg h5] at hz hb
      omega
  have hband : list.rates.drop (if Is5gBand cfg.currentChannel then 4 else 0) =
      bandRates cfg list.rates := by
    unfold bandRates
    split <;> rfl
  have hsel : (if cfg.needHt then z + 1 else z) = z + s := by
    rw [hs, selector]
    split <;> simp
  have hcap : (if (8 : ℤ) < z + s then 8 else z + s) = suppNum cfg list.rates := by
    rw [suppNum, ← hz, ← hs]
    split <;> omega
  have htake : (bandRates cfg list.rates).take (suppNum cfg list.rates).toNat =
      (bandRates cfg list.rates).take 8 := by
    rw [suppNum, ← hz, ← hs]
    by_cases hle : b ≤ 8
    · by_cases hzero : b = 0
      · rw [List.eq_nil_of_length_eq_zero hzero, List.take_nil, List.take_nil]
      · rw [List.take_of_length_le (by omega), List.take_of_length_le (by omega)]
    · rw [show (min 8 (z + s)).toNat = 8 by omega]
  have hlast : suppNum cfg list.rates < 8 ↔ b + s < 8 := by
    rw [suppNum, ← hz, ← hs]
    omega
  simp only [hostapdEidSuppRates, hlist, hband, ← hz, hsel, hcap, suppLoop_eq, Int.sub_zero, htake,
    suppBody, ← hbdef, ← hs, hlast]
  cases hneed : cfg.needHt with
  | false => simp [selector, hneed]
  | true =>
    by_cases hlt : b + s < 8
    · simp [selector, hneed, hlt]
    · simp [hlt]

theorem suppNum_eq (h4 : 4 ≤ list.rates.length) : suppNum cfg list.rates =
    (min 8 ((bandRates cfg list.rates).length + (selector cfg).length) : ℕ) := by
  have hb := bandRates_length cfg list.rates
  rw [suppNum]
  split at hb
  next h5 => rw [if_pos h5]; omega
  next h24 => rw [if_neg h24]; omega

theorem hostapdEidExtSuppRates_eq (hlist : cfg.pRates = some list) (eid : Cursor) :
    hostapdEidExtSuppRates cfg eid = if list.rates.length + (selector cfg).length ≤ 8 then eid
      else eid.write (eidExtSuppRates ::
        UInt8.ofNat (list.rates.length + (selector cfg).length - 8) ::
          ((list.rates.drop 8).map (rateOctet cfg) ++ selector cfg)) := by
  set n := list.rates.length with hn
  set s := (selector cfg).length with hs
  have hsel : (if cfg.needHt then (n : ℤ) + 1 else n) = (n + s : ℕ) := by
    rw [hs, selector]
    split <;> simp
  simp only [hostapdEidExtSuppRates, hlist, ← hn, hsel]
  by_cases hle : n + s ≤ 8
  · rw [if_pos (by omega), if_pos hle]
  · have hs1 := selector_length_le cfg
    have hloop := fun pos => extLoop_eq cfg ((n + s : ℕ) - 8) list.rates 0 pos (by omega)
    have hoctet : UInt8.ofInt ((n + s : ℕ) - 8 : ℤ) = UInt8.ofNat (n + s - 8) := by
      rw [show ((n + s : ℕ) - 8 : ℤ) = ((n + s - 8 : ℕ) : ℤ) by omega, ofInt_natCast]
    rw [if_neg (by omega), if_neg hle, hoctet]
    simp only [Nat.cast_zero] at hloop
    rw [hloop, ← hn]
    cases hneed : cfg.needHt with
    | false => simp [selector, hneed]
    | true =>
      have hs' : s = 1 := by simp [hs, selector, hneed]
      have hlast : (8 : ℤ) < 0 + n + 1 := by omega
      simp only [Bool.true_and, decide_eq_true hlast, if_true]
      simp [selector, hneed]

/-! ## When the two functions agree -/

/-- In the 5 GHz band all fits into the first element, with the four rates that are not of the
band; in the 2.4 GHz band the selector is not the eighth octet. -/
def CutsAgree (cfg : RateCfg) (n : ℕ) : Prop :=
  if Is5gBand cfg.currentChannel then n + (selector cfg).length ≤ 8
  else n + (selector cfg).length = 8 → selector cfg = []

instance (cfg : RateCfg) (n : ℕ) : Decidable (CutsAgree cfg n) :=
  inferInstanceAs (Decidable (if Is5gBand cfg.currentChannel then n + (selector cfg).length ≤ 8
    else (n + (selector cfg).length = 8 → selector cfg = [])))

theorem length_suppBody (cfg : RateCfg) (rates : List Rate) :
    (suppBody cfg rates).length = min 8 (bandRates cfg rates).length +
      if (bandRates cfg rates).length + (selector cfg).length < 8 then (selector cfg).length
      else 0 := by
  rw [suppBody, List.length_append, List.length_map, List.length_take]
  split <;> rfl

/-- Where the functions agree, the first element is as long as it says. -/
theorem length_suppBody_of_cutsAgree {rates : List Rate} (h4 : 4 ≤ rates.length)
    (hagree : CutsAgree cfg rates.length) :
    (suppBody cfg rates).length =
      min 8 ((bandRates cfg rates).length + (selector cfg).length) := by
  have hs1 := selector_length_le cfg
  have hb := bandRates_length cfg rates
  unfold CutsAgree at hagree
  rw [length_suppBody]
  split at hagree
  next h5 =>
    rw [if_pos h5] at hb
    rw [if_pos (by omega)]
    omega
  next h24 =>
    rw [if_neg h24] at hb
    split
    · omega
    · by_cases height : rates.length + (selector cfg).length = 8
      · have hnone := congrArg List.length (hagree height)
        rw [List.length_nil] at hnone
        omega
      · omega

/-- What is behind the pointer that `hostapd_eid_ext_supp_rates` gets. -/
theorem extElement (hlist : cfg.pRates = some list) (eid : Cursor) :
    (hostapdEidExtSuppRates cfg eid = eid ∨ IsElement eid (hostapdEidExtSuppRates cfg eid)) ∧
      body eid (hostapdEidExtSuppRates cfg eid) =
        if list.rates.length + (selector cfg).length ≤ 8 then []
        else (list.rates.drop 8).map (rateOctet cfg) ++ selector cfg := by
  have hs1 := selector_length_le cfg
  have hshort := list.short
  rw [hostapdEidExtSuppRates_eq hlist]
  split
  next => exact ⟨.inl rfl, body_self eid⟩
  next hmore =>
    refine ⟨.inr ((isElement_write _ _ _ _).mpr ?_), body_write _ _ _ _⟩
    rw [UInt8.toNat_ofNat', List.length_append, List.length_map, List.length_drop,
      Nat.mod_eq_of_lt (by omega)]
    omega

/-- What is behind the pointer that `hostapd_eid_supp_rates` gets. -/
theorem suppElement (hlist : cfg.pRates = some list) (h4 : 4 ≤ list.rates.length) (eid : Cursor) :
    (IsElement eid (hostapdEidSuppRates cfg eid) ↔
      min 8 ((bandRates cfg list.rates).length + (selector cfg).length) =
        (suppBody cfg list.rates).length) ∧
      body eid (hostapdEidSuppRates cfg eid) = suppBody cfg list.rates := by
  rw [hostapdEidSuppRates_eq hlist, isElement_write, suppNum_eq h4, ofInt_natCast,
    UInt8.toNat_ofNat', Nat.mod_eq_of_lt (by omega)]
  exact ⟨Iff.rfl, body_write _ _ _ _⟩

/-- Where the functions agree, the first element has the rates up to the eighth octet, and the
second has the rest. -/
theorem suppBody_append (rates : List Rate) (hagree : CutsAgree cfg rates.length) :
    suppBody cfg rates ++ (if rates.length + (selector cfg).length ≤ 8 then []
      else (rates.drop 8).map (rateOctet cfg) ++ selector cfg) =
        (bandRates cfg rates).map (rateOctet cfg) ++ selector cfg := by
  have hs1 := selector_length_le cfg
  have hb := bandRates_length cfg rates
  unfold CutsAgree at hagree
  rw [suppBody]
  by_cases hfew : rates.length + (selector cfg).length ≤ 8
  · have hsel : (if (bandRates cfg rates).length + (selector cfg).length < 8 then selector cfg
        else []) = selector cfg := by
      split at hagree
      · exact if_pos (by split at hb <;> omega)
      · rcases Nat.lt_or_ge (rates.length + (selector cfg).length) 8 with hlt | hge
        · exact if_pos (by split at hb <;> omega)
        · rw [hagree (by omega), ite_self]
    rw [if_pos hfew, hsel, List.append_nil,
      List.take_of_length_le (by split at hb <;> omega)]
  · have h24 : ¬ Is5gBand cfg.currentChannel := fun h5 => hfew (by rwa [if_pos h5] at hagree)
    have hband : bandRates cfg rates = rates := if_neg h24
    rw [if_neg hfew, hband, if_neg (by omega), List.append_nil, ← List.append_assoc,
      ← List.map_append, List.take_append_drop]

/-- The two elements hold the rates of the band, each once and in order, and the selector if it is
required, exactly if the two functions cut the list at the same place. -/
theorem ratesRight_iff (cfg : RateCfg) (list : RateList) (hlist : cfg.pRates = some list)
    (h4 : 4 ≤ list.rates.length) (eid eid' : Cursor) :
    RatesRight cfg list eid eid' ↔ CutsAgree cfg list.rates.length := by
  have hs1 := selector_length_le cfg
  have hb := bandRates_length cfg list.rates
  have hlen := length_suppBody cfg list.rates
  obtain ⟨hsupp, hsuppBody⟩ := suppElement hlist h4 eid
  obtain ⟨hext, hextBody⟩ := extElement hlist eid'
  constructor
  · rintro ⟨helement, -, -, rs, rs', hrates, htiles⟩
    have hsum := congrArg List.length htiles
    have htotal := congrArg List.length hrates
    have hcount := hsupp.mp helement
    have hextLen : (body eid' (hostapdEidExtSuppRates cfg eid')).length =
        if list.rates.length + (selector cfg).length ≤ 8 then 0
        else list.rates.length - 8 + (selector cfg).length := by
      rw [hextBody]
      split
      · rfl
      · rw [List.length_append, List.length_map, List.length_drop]
    simp only [List.length_append, List.length_map, hsuppBody, hextLen] at hsum htotal
    unfold CutsAgree
    split
    next h5 =>
      rw [if_pos h5] at hb
      split at hsum <;> split at hlen <;> omega
    next h24 =>
      rw [if_neg h24] at hb
      intro height
      refine List.eq_nil_of_length_eq_zero ?_
      split at hlen <;> omega
  · intro hagree
    have hfull := length_suppBody_of_cutsAgree h4 hagree
    refine ⟨hsupp.mpr hfull.symm, hext, ?_, (bandRates cfg list.rates).map (rateOctet cfg), [],
      List.append_nil _, ?_⟩
    · rw [hsuppBody, hfull]
      exact Nat.min_le_left _ _
    · rw [hsuppBody, hextBody, List.append_nil]
      exact suppBody_append list.rates hagree

/-- The first of the rates 1, 2, 5.5, 11, 6, 9, 12, 18, 24, 36, 48 and 54 Mbit/s. -/
def legacyRates (n : ℕ) (hn : n < 256) : RateList where
  rates := (([2, 4, 11, 22, 12, 18, 24, 36, 48, 72, 96, 108] : List UInt16).take n).map fun b =>
    ⟨b, 0⟩
  short := by
    rw [List.length_map, List.length_take]
    exact Nat.lt_of_le_of_lt (Nat.min_le_left _ _) hn

/-- All twelve rates. -/
def allRates : RateList := legacyRates 12 (by decide)

/-- All but the five highest. -/
def sevenRates : RateList := legacyRates 7 (by decide)

/-- An access point of the 2.4 GHz band, which may require HT. -/
def rateCfg24 (bRequireHt : Bool) (list : RateList) : RateCfg where
  pRates := some list
  eApMode := 1
  b80211n := true
  bRequireHt := bRequireHt
  currentChannel := 6

/-- An access point of the 5 GHz band, which does not. -/
def rateCfg5 (list : RateList) : RateCfg := { rateCfg24 false list with currentChannel := 36 }

theorem ratesRight_allRates : 4 ≤ allRates.rates.length ∧
    RatesRight (rateCfg24 true allRates) allRates blank blank :=
  ⟨by decide, (ratesRight_iff (rateCfg24 true allRates) allRates rfl (by decide) blank blank).mpr
    (by decide)⟩

/-- In the 5 GHz band the four highest of the twelve rates are in both elements. In the 2.4 GHz band
the element with seven rates and a selector to come claims eight octets. -/
theorem not_ratesRight : ¬ RatesRight (rateCfg5 allRates) allRates blank blank ∧
    ¬ RatesRight (rateCfg24 true sevenRates) sevenRates blank blank := by
  refine ⟨fun h => ?_, fun h => ?_⟩
  · obtain ⟨rs, rs', hrates, htiles⟩ := h.tiles
    have htwelve : (body blank (hostapdEidSuppRates (rateCfg5 allRates) blank) ++
        body blank (hostapdEidExtSuppRates (rateCfg5 allRates) blank)).length = 12 := by
      decide +kernel
    have height : ((bandRates (rateCfg5 allRates) allRates.rates).map
        (rateOctet (rateCfg5 allRates))).length = 8 := by decide
    have hnone : selector (rateCfg5 allRates) = [] := rfl
    rw [htiles, hnone, List.append_nil, hrates, height] at htwelve
    cases htwelve
  · have hsupp := h.supp
    revert hsupp
    unfold IsElement
    decide +kernel

end Fullmac.Ap.Beacon
