import Fullmac.Reg.Channels

/-!
# Channels of 40 MHz

Reference: `host/core/Regulatory.c`, `freq_40MHZ_legal`; `host/core/host_apis.c`,
`ssv6xxx_wifi_is_40MHZ_legal` and `ssv6xxx_wifi_set_channel`; `host/core/channel.c`.

A channel of 40 MHz is a channel of 20 MHz with a secondary channel above it or below it, as the
flag of its entry in the channel table says. An access point takes it when a rule that allows 40 MHz
contains the channel of 20 MHz. Where the secondary channel is, is not looked at.
-/

namespace Fullmac.Reg

open Rx (HwMode)

/-! ## The functions -/

/-- `struct ieee80211_reg_rule`, with the bandwidth. -/
structure BwRule extends RegRule where
  maxBandwidthKhz : UInt32
deriving DecidableEq

/-- `enum nl80211_channel_type`. -/
inductive ChannelType
  | noHt | ht20 | ht40minus | ht40plus
deriving DecidableEq, Repr

/-- The flags of `ssv6xxx_5ghz_chantable`. -/
def flags5ghz : List ChannelType :=
  [.ht40plus, .ht40minus, .ht40plus, .ht40minus, .ht40plus, .ht40minus, .ht40plus, .ht40minus,
    .ht40plus, .ht40minus, .ht40plus, .ht40minus, .ht40plus, .ht40minus, .ht40plus, .ht40minus,
    .ht40plus, .ht40minus, .ht40plus, .ht40minus, .ht40plus, .ht40minus, .ht40plus, .ht40minus,
    .ht20]

/-- The flag of an entry of the table. -/
def flagOf (i : ℕ) : ChannelType := flags5ghz.getD i .noHt

/-- The loop of `freq_40MHZ_legal`, with `band_rule_found`. -/
def freq40mhzLoop (centerFreq : ℕ) : Bool → List BwRule → Bool
  | _, [] => false
  | found, r :: rs =>
    let found := found || freqInRuleBand r.toRegRule (mhzToKhz centerFreq)
    if found && regDoesBwFit r.toRegRule (mhzToKhz centerFreq) (mhzToKhz 20)
        && decide (mhzToKhz 40 ≤ r.maxBandwidthKhz.toNat) then true
    else freq40mhzLoop centerFreq found rs

/-- `freq_40MHZ_legal`. -/
def freq40mhzLegal (centerFreq : ℕ) (rules : List BwRule) : Bool :=
  freq40mhzLoop centerFreq false rules

/-- `ssv6xxx_wifi_is_40MHZ_legal`, with the rules of the current domain. A channel that is not in
the table has the entry before the first, whose frequency is `stray`. -/
def is40mhzLegal (rules : List BwRule) (stray ch : ℕ) : Bool :=
  if Is5gBand ch then
    match chToBitmask ch with
    | some i => freq40mhzLegal (entry chantable5ghz i).centerFreq rules
    | none => freq40mhzLegal stray rules
  else false

/-- `struct freq_params`. -/
structure FreqParams where
  currentChannel : ℕ
  secChannelOffset : ChannelType

/-- The type of a channel of 5 GHz, which is of 20 MHz unless a wider one is legal. -/
def type5g (rules : List BwRule) (stray num : ℕ) : ChannelType :=
  if is40mhzLegal rules stray num then
    match chToBitmask num with
    | some i => flagOf i
    | none => .ht20
  else .ht20

/-- `ssv6xxx_wifi_set_channel`: what goes to the firmware. -/
def wifiSetChannel (rules : List BwRule) (stray : ℕ) (apHt20Only : Bool) (num : ℕ)
    (hMode : HwMode) : FreqParams where
  currentChannel := num
  secChannelOffset :=
    match hMode with
    | .sta => .ht20
    | .ap => if apHt20Only then .ht20 else if Is5gBand num then type5g rules stray num else .ht20
    | .sconfig => if Is5gBand num then type5g rules stray num else .ht20
    | _ => .ht20

/-! ## Where the block lies -/

/-- The type is of 40 MHz. -/
def ChannelType.Is40 (t : ChannelType) : Prop := t = .ht40minus ∨ t = .ht40plus

/-- The frequency of the secondary channel. -/
def ChannelType.secondary (t : ChannelType) (f : ℕ) : ℕ := if t = .ht40plus then f + 20 else f - 20

/-- The rule allows 40 MHz. -/
def BwRule.Allows40 (r : BwRule) : Prop := 40000 ≤ r.maxBandwidthKhz.toNat

instance (t : ChannelType) : Decidable t.Is40 := inferInstanceAs (Decidable (_ ∨ _))

instance (r : BwRule) : Decidable r.Allows40 := inferInstanceAs (Decidable (_ ≤ _))

/-- A type of 40 MHz is chosen only where one rule that allows 40 MHz contains the channel and its
secondary channel. -/
def StaysInside (rules : List BwRule) (num : ℕ) (t : ChannelType) : Prop :=
  t.Is40 → ∃ i, chToBitmask num = some i ∧ ∃ r ∈ rules, r.Allows40 ∧
    r.Contains (entry chantable5ghz i).centerFreq ∧
      r.Contains (t.secondary (entry chantable5ghz i).centerFreq)

/-- Some rule that allows 40 MHz contains the channel of 20 MHz, and that rule or one before it is
in the band of the channel. -/
def Licensed (rules : List BwRule) (f : ℕ) : Prop :=
  ∃ before r after, rules = before ++ r :: after ∧ r.Allows40 ∧ r.Contains f ∧
    ∃ r' ∈ before ++ [r], freqInRuleBand r'.toRegRule (mhzToKhz f) = true

/-- If the channel may be of 40 MHz and some rule of 40 MHz contains it, then some such rule
contains its secondary channel, too. -/
def SecondaryCovered (rules : List BwRule) (num : ℕ) : Prop :=
  ∀ i, chToBitmask num = some i → (flagOf i).Is40 →
    Licensed rules (entry chantable5ghz i).centerFreq →
    ∃ r ∈ rules, r.Allows40 ∧ r.Contains (entry chantable5ghz i).centerFreq ∧
      r.Contains ((flagOf i).secondary (entry chantable5ghz i).centerFreq)

/-! ## The loop -/

section Loop

variable {rules : List BwRule} {f : ℕ}

/-- What the loop finds. -/
theorem freq40mhzLoop_iff (hf : 10 ≤ f) (hf' : f < 4000000) (found : Bool) :
    freq40mhzLoop f found rules = true ↔
      ∃ before r after, rules = before ++ r :: after ∧ r.Allows40 ∧ r.Contains f ∧
        (found = true ∨ ∃ r' ∈ before ++ [r], freqInRuleBand r'.toRegRule (mhzToKhz f) = true) := by
  induction rules generalizing found with
  | nil => simp [freq40mhzLoop]
  | cons r rules ih =>
    have hallows : mhzToKhz 40 ≤ r.maxBandwidthKhz.toNat ↔ r.Allows40 := Iff.rfl
    have hfit : regDoesBwFit r.toRegRule (mhzToKhz f) (mhzToKhz 20) = true ↔ r.Contains f :=
      regDoesBwFit_iff hf hf'
    have htail := ih (found || freqInRuleBand r.toRegRule (mhzToKhz f))
    simp only [freq40mhzLoop]
    split
    case isTrue h =>
      simp only [Bool.and_eq_true, Bool.or_eq_true, decide_eq_true_eq, hfit, hallows] at h
      refine iff_of_true rfl ⟨[], r, rules, rfl, h.2, h.1.2, ?_⟩
      simpa using h.1.1
    case isFalse h =>
      simp only [Bool.and_eq_true, Bool.or_eq_true, decide_eq_true_eq, hfit, hallows] at h
      rw [htail]
      constructor
      · rintro ⟨before, r', after, rfl, ha, hc, hband⟩
        refine ⟨r :: before, r', after, rfl, ha, hc, ?_⟩
        rcases hband with hband | ⟨r₁, hr₁, hb⟩
        · rcases Bool.or_eq_true _ _ ▸ hband with hfound | hb
          · exact .inl hfound
          · exact .inr ⟨r, List.mem_cons_self, hb⟩
        · exact .inr ⟨r₁, List.mem_cons_of_mem r hr₁, hb⟩
      · rintro ⟨before, r', after, heq, ha, hc, hband⟩
        cases before with
        | nil =>
          obtain ⟨rfl, rfl⟩ : r = r' ∧ rules = after := by simpa using heq
          exact absurd ⟨⟨by simpa using hband, hc⟩, ha⟩ h
        | cons r₀ before =>
          obtain ⟨rfl, rfl⟩ : r = r₀ ∧ rules = before ++ r' :: after := by simpa using heq
          refine ⟨before, r', after, rfl, ha, hc, ?_⟩
          rcases hband with hfound | ⟨r₁, hr₁, hb⟩
          · exact .inl (by simp [hfound])
          · rcases List.mem_cons.mp hr₁ with rfl | hr₁
            · exact .inl (by simp [hb])
            · exact .inr ⟨r₁, hr₁, hb⟩

theorem freq40mhzLegal_iff (hf : 10 ≤ f) (hf' : f < 4000000) :
    freq40mhzLegal f rules = true ↔ Licensed rules f := by
  simp [freq40mhzLegal, freq40mhzLoop_iff hf hf', Licensed]

end Loop

/-! ## The choice -/

variable {rules : List BwRule} {num i : ℕ}

/-- The channels of the table of 5 GHz have frequencies in its range. -/
theorem centerFreq_bounds (h5 : Is5gBand num) (hi : chToBitmask num = some i) :
    10 ≤ (entry chantable5ghz i).centerFreq ∧ (entry chantable5ghz i).centerFreq < 4000000 := by
  have hbounds : ∀ i < chantable5ghz.length,
      10 ≤ (entry chantable5ghz i).centerFreq ∧ (entry chantable5ghz i).centerFreq < 4000000 := by
    decide
  rw [chToBitmask, tableOf, if_pos h5] at hi
  exact hbounds i (List.findIdx?_eq_some_iff_findIdx_eq.mp hi).1

/-- **40 MHz inside the regulation.** For every list of rules, an access point that selects a type
of 40 MHz for a channel of 5 GHz stays inside a rule that allows it exactly when it is restricted to
20 MHz, or one of the rules of 40 MHz that contain the channel contains the secondary channel, too,
if there is any. -/
theorem wifiSetChannel_staysInside_iff (rules : List BwRule) (stray : ℕ) (apHt20Only : Bool)
    (num : ℕ) (h5 : Is5gBand num) :
    StaysInside rules num (wifiSetChannel rules stray apHt20Only num .ap).secChannelOffset ↔
      apHt20Only = true ∨ SecondaryCovered rules num := by
  have h20 : ¬ ChannelType.Is40 .ht20 := by decide
  cases apHt20Only with
  | true => exact iff_of_true (fun h => absurd h h20) (.inl rfl)
  | false =>
    simp only [wifiSetChannel, Bool.false_eq_true, if_false, if_pos h5, false_or]
    cases hi : chToBitmask num with
    | none =>
      -- not in the table: never of 40 MHz
      refine iff_of_true (fun h => absurd h ?_) fun i hi' => ?_
      · unfold type5g
        rw [hi]
        split <;> exact h20
      · rw [hi] at hi'
        exact absurd hi' (by simp)
    | some i =>
      obtain ⟨hf, hf'⟩ := centerFreq_bounds h5 hi
      have hlegal : is40mhzLegal rules stray num = true
          ↔ Licensed rules (entry chantable5ghz i).centerFreq := by
        rw [is40mhzLegal, if_pos h5, hi]
        exact freq40mhzLegal_iff hf hf'
      simp only [StaysInside, SecondaryCovered, type5g, hi, Option.some.injEq]
      by_cases hl : Licensed rules (entry chantable5ghz i).centerFreq
      · rw [if_pos (hlegal.mpr hl)]
        constructor
        · rintro h _ rfl h40 -
          obtain ⟨_, rfl, hr⟩ := h h40
          exact hr
        · intro h h40
          exact ⟨i, rfl, h i rfl h40 hl⟩
      · rw [if_neg fun h => hl (hlegal.mp h)]
        refine iff_of_true (fun h => absurd h h20) ?_
        rintro _ rfl - h
        exact absurd h hl

/-- A rule in MHz. -/
def ruleMhz (first last width : ℕ) (flags : UInt32) : BwRule :=
  ⟨⟨.ofNat (mhzToKhz first), .ofNat (mhzToKhz last), flags⟩, .ofNat (mhzToKhz width)⟩

/-- The domain of Taiwan. -/
def twRules : List BwRule :=
  [ruleMhz 2402 2472 40 0, ruleMhz 5270 5330 40 rrfDfs, ruleMhz 5490 5590 80 rrfDfs,
    ruleMhz 5650 5710 40 rrfDfs, ruleMhz 5735 5815 80 0]

theorem staysInside_twRules_149 :
    StaysInside twRules 149 (wifiSetChannel twRules 0 false 149 .ap).secChannelOffset := by
  refine (wifiSetChannel_staysInside_iff twRules 0 false 149 (by decide)).mpr (.inr ?_)
  intro i hi h40 hl
  have h149 : chToBitmask 149 = some 20 := by decide
  obtain rfl : i = 20 := Option.some.inj (hi.symm.trans h149)
  exact ⟨ruleMhz 5735 5815 80 0, by decide, by decide, by decide, by decide⟩

/-- Channel 56 is taken with the secondary channel below it, where no rule is. -/
theorem not_staysInside_twRules_56 :
    ¬ StaysInside twRules 56 (wifiSetChannel twRules 0 false 56 .ap).secChannelOffset := by
  intro h
  have h56 : chToBitmask 56 = some 5 := by decide
  obtain ⟨i, hi, r, hr, -, hc, hs⟩ := h (by decide)
  obtain rfl : i = 5 := Option.some.inj (hi.symm.trans h56)
  have hnone : ∀ r ∈ twRules, r.Contains 5280 → ¬ r.Contains 5260 := by decide
  exact hnone r hr hc hs

end Fullmac.Reg
