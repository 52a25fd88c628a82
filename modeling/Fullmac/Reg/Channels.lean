import Fullmac.Lib.Masks
import Fullmac.Rx.Reorder

/-!
# Channels of the regulatory domain

Reference: `host/core/Regulatory.c`; `host/core/channel.c`; `host/core/host_apis.c`,
`ssv6xxx_wifi_ch_to_bitmask` and `ssv6xxx_wifi_set_reg` to
`ssv6xxx_wifi_align_available_channel_mask`; `host/init/country_cfg.h`.

A channel is legal when a rule of the domain contains it. What is legal is kept in two masks, one
for each band, in which a channel has the number of its entry in the channel table; the numbers of
the two bands overlap. Frequencies are unsigned 32-bit numbers of kHz, and differences wrap around.
-/

namespace Fullmac.Reg

open Rx (HwMode)

/-! ## Rules -/

/-- `struct ieee80211_reg_rule`, without the bandwidth and the power. -/
structure RegRule where
  startFreqKhz : UInt32
  endFreqKhz : UInt32
  flags : UInt32
deriving DecidableEq

/-- `struct ieee80211_regdomain`. -/
structure Regdomain where
  alpha2 : UInt8 × UInt8
  regRules : List RegRule
deriving DecidableEq

/-- `NL80211_RRF_DFS`. -/
def rrfDfs : UInt32 := 0x10

/-- Unsigned 32-bit subtraction. -/
def sub32 (a b : ℕ) : ℕ := (a + 2 ^ 32 - b) % 2 ^ 32

/-- `abs`, of an unsigned 32-bit number read as a signed one. -/
def abs32 (x : ℕ) : ℕ := if 2 ^ 31 ≤ x then 2 ^ 32 - x else x

/-- `MHZ_TO_KHZ`. -/
def mhzToKhz (freq : ℕ) : ℕ := freq * 1000

/-- `BW`. -/
def bw : ℕ := 20

/-- `freq_in_rule_band`. -/
def freqInRuleBand (r : RegRule) (freqKhz : ℕ) : Bool :=
  abs32 (sub32 freqKhz r.startFreqKhz.toNat) ≤ 2 * 1000000
    || abs32 (sub32 freqKhz r.endFreqKhz.toNat) ≤ 2 * 1000000

/-- `reg_does_bw_fit`. -/
def regDoesBwFit (r : RegRule) (centerFreqKhz bwKhz : ℕ) : Bool :=
  r.startFreqKhz.toNat ≤ sub32 centerFreqKhz (bwKhz / 2)
    && (centerFreqKhz + bwKhz / 2) % 2 ^ 32 ≤ r.endFreqKhz.toNat

/-- The loop over the rules, with `band_rule_found`: whether a rule in the band of the frequency
contains the channel and satisfies `p`. -/
def ruleLoop (p : RegRule → Bool) (centerFreq bw : ℕ) : Bool → List RegRule → Bool
  | _, [] => false
  | found, r :: rs =>
    let found := found || freqInRuleBand r (mhzToKhz centerFreq)
    if found && regDoesBwFit r (mhzToKhz centerFreq) (mhzToKhz bw) && p r then true
    else ruleLoop p centerFreq bw found rs

/-- `freq_reg_info_regd` returns 0. -/
def freqRegInfoRegd (centerFreq bw : ℕ) (rules : List RegRule) : Bool :=
  ruleLoop (fun _ => true) centerFreq bw false rules

/-- `freq_need_dfs`. -/
def freqNeedDfs (centerFreq bw : ℕ) (rules : List RegRule) : Bool :=
  ruleLoop (fun r => r.flags &&& rrfDfs != 0) centerFreq bw false rules

/-! ## Channels -/

/-- `struct ieee80211_channel`, without the flags and the power. -/
structure Channel where
  centerFreq : ℕ
  hwValue : ℕ
deriving DecidableEq

/-- `MAX_2G_CHANNEL_NUM`. -/
def max2gChannelNum : ℕ := 16

/-- `MAX_5G_CHANNEL_NUM`. -/
def max5gChannelNum : ℕ := 25

/-- `ssv6xxx_2ghz_chantable`, whose first and last entry stay zero. -/
def chantable2ghz : List Channel :=
  [⟨0, 0⟩, ⟨2412, 1⟩, ⟨2417, 2⟩, ⟨2422, 3⟩, ⟨2427, 4⟩, ⟨2432, 5⟩, ⟨2437, 6⟩, ⟨2442, 7⟩, ⟨2447, 8⟩,
    ⟨2452, 9⟩, ⟨2457, 10⟩, ⟨2462, 11⟩, ⟨2467, 12⟩, ⟨2472, 13⟩, ⟨2484, 14⟩, ⟨0, 0⟩]

/-- `ssv6xxx_5ghz_chantable`. -/
def chantable5ghz : List Channel :=
  [⟨5180, 36⟩, ⟨5200, 40⟩, ⟨5220, 44⟩, ⟨5240, 48⟩, ⟨5260, 52⟩, ⟨5280, 56⟩, ⟨5300, 60⟩, ⟨5320, 64⟩,
    ⟨5500, 100⟩, ⟨5520, 104⟩, ⟨5540, 108⟩, ⟨5560, 112⟩, ⟨5580, 116⟩, ⟨5600, 120⟩, ⟨5620, 124⟩,
    ⟨5640, 128⟩, ⟨5660, 132⟩, ⟨5680, 136⟩, ⟨5700, 140⟩, ⟨5720, 144⟩, ⟨5745, 149⟩, ⟨5765, 153⟩,
    ⟨5785, 157⟩, ⟨5805, 161⟩, ⟨5825, 165⟩]

/-- An entry of a channel table. -/
def entry (table : List Channel) (i : ℕ) : Channel := table.getD i ⟨0, 0⟩

/-- `IS_5G_BAND`. -/
def Is5gBand (ch : ℕ) : Prop := max2gChannelNum < ch

instance (ch : ℕ) : Decidable (Is5gBand ch) := inferInstanceAs (Decidable (_ < _))

/-- The table of the band of a channel. -/
def tableOf (ch : ℕ) : List Channel := if Is5gBand ch then chantable5ghz else chantable2ghz

/-- `ssv6xxx_wifi_ch_to_bitmask`, with `none` for -1. -/
def chToBitmask (ch : ℕ) : Option ℕ := (tableOf ch).findIdx? fun c => c.hwValue = ch

/-! ## The masks -/

/-- What the host application has set up: whether 5 GHz is supported, and `ap_no_dfs`. -/
structure RegCfg where
  support5g : Bool
  apNoDfs : Bool

/-- The country code and the two masks of the device. -/
structure RegState where
  alpha2 : UInt8 × UInt8
  available2g : BitVec 16
  available5g : BitVec 32

/-- `_ssv6xxx_wifi_get_regdomain`, in the table `regdom`. -/
def getRegdomain (regdom : List Regdomain) (reg : UInt8 × UInt8) : Option Regdomain :=
  regdom.find? fun d => !d.regRules.isEmpty && d.alpha2 == reg

/-- `ssv6xxx_wifi_update_available_channel`. -/
def updateAvailableChannel (regdom : List Regdomain) (cfg : RegCfg) (s : RegState) : RegState :=
  match getRegdomain regdom s.alpha2 with
  | none => s
  | some preg =>
    { s with
      available2g := Masks.setWhere 16
        (fun i => freqRegInfoRegd (entry chantable2ghz i).centerFreq bw preg.regRules)
        max2gChannelNum
      available5g := if cfg.support5g then Masks.setWhere 32
          (fun i => freqRegInfoRegd (entry chantable5ghz i).centerFreq bw preg.regRules)
          max5gChannelNum
        else 0 }

/-- `ssv6xxx_wifi_set_reg`. -/
def setReg (regdom : List Regdomain) (cfg : RegCfg) (reg : UInt8 × UInt8) (s : RegState) :
    RegState :=
  match getRegdomain regdom reg with
  | none => s
  | some _ => updateAvailableChannel regdom cfg { s with alpha2 := reg }

/-- The rules of the current domain, of which there are none without one. -/
def currentRules (regdom : List Regdomain) (s : RegState) : List RegRule :=
  ((getRegdomain regdom s.alpha2).map Regdomain.regRules).getD []

/-- `ssv6xxx_wifi_is_available_channel`. -/
def isAvailableChannel (regdom : List Regdomain) (cfg : RegCfg) (mode : HwMode) (ch : ℕ)
    (s : RegState) : Bool × RegState :=
  let reg := currentRules regdom s
  match chToBitmask ch with
  | none => (false, s)
  | some bitNum =>
    let s := updateAvailableChannel regdom cfg s
    if cfg.support5g then
      if Is5gBand ch then
        if s.available5g.getLsbD bitNum then
          if cfg.apNoDfs then
            if freqNeedDfs (entry chantable5ghz bitNum).centerFreq bw reg ∧ mode = .ap then
              (false, s)
            else (true, s)
          else (true, s)
        else (false, s)
      else (s.available2g.getLsbD bitNum, s)
    else (s.available2g.getLsbD bitNum, s)

/-- `ssv6xxx_wifi_align_available_channel_mask`. -/
def alignAvailableChannelMask (regdom : List Regdomain) (cfg : RegCfg) (mode : HwMode)
    (s : RegState) (mask2g : BitVec 16) (mask5g : BitVec 32) : BitVec 16 × BitVec 32 :=
  let reg := currentRules regdom s
  (mask2g &&& s.available2g,
    if cfg.support5g then
      let mask5g := mask5g &&& s.available5g
      if cfg.apNoDfs then Masks.clearWhere
        (fun i => freqNeedDfs (entry chantable5ghz i).centerFreq bw reg && mode == .ap)
        max5gChannelNum mask5g
      else mask5g
    else 0)

/-! ## Runs -/

/-- What is asked of the regulatory code. -/
inductive RegOp
  | setReg (reg : UInt8 × UInt8)
  | update
  | isAvailable (mode : HwMode) (ch : ℕ)

/-- One request, under the settings of its time. -/
def regStep (regdom : List Regdomain) (s : RegState) (r : RegCfg × RegOp) : RegState :=
  match r.2 with
  | .setReg reg => setReg regdom r.1 reg s
  | .update => updateAvailableChannel regdom r.1 s
  | .isAvailable mode ch => (isAvailableChannel regdom r.1 mode ch s).2

/-- The device after its initialisation. -/
def regInit : RegState := ⟨(0, 0), 0, 0⟩

/-! ## What the rules say -/

/-- The rule contains the channel of 20 MHz around a frequency in MHz. -/
def RegRule.Contains (r : RegRule) (f : ℕ) : Prop :=
  r.startFreqKhz.toNat + 10000 ≤ 1000 * f ∧ 1000 * f + 10000 ≤ r.endFreqKhz.toNat

/-- The range of the rule is narrower than 4 GHz. -/
def RegRule.Narrow (r : RegRule) : Prop := r.endFreqKhz.toNat < r.startFreqKhz.toNat + 4000000

/-- The rule asks for the detection of radar. -/
def RegRule.Dfs (r : RegRule) : Prop := r.flags &&& rrfDfs ≠ 0

instance (r : RegRule) (f : ℕ) : Decidable (r.Contains f) :=
  inferInstanceAs (Decidable (_ ∧ _))

instance (r : RegRule) : Decidable r.Narrow := inferInstanceAs (Decidable (_ < _))

instance (r : RegRule) : Decidable r.Dfs := inferInstanceAs (Decidable (_ ≠ _))

section Rules

variable {r : RegRule} {f : ℕ} {rules : List RegRule}

theorem regDoesBwFit_iff (hf : 10 ≤ f) (hf' : f < 4000000) :
    regDoesBwFit r (mhzToKhz f) (mhzToKhz bw) = true ↔ r.Contains f := by
  have hstart : sub32 (mhzToKhz f) (mhzToKhz bw / 2) = 1000 * f - 10000 := by
    simp only [sub32, mhzToKhz, bw]
    omega
  have hend : (mhzToKhz f + mhzToKhz bw / 2) % 2 ^ 32 = 1000 * f + 10000 := by
    simp only [mhzToKhz, bw]
    omega
  simp only [regDoesBwFit, hstart, hend, Bool.and_eq_true, decide_eq_true_eq, RegRule.Contains]
  omega

/-- A narrow rule that contains a channel is in its band. -/
theorem freqInRuleBand_of_contains (hr : r.Narrow) (h : r.Contains f) :
    freqInRuleBand r (mhzToKhz f) = true := by
  obtain ⟨hlo, hhi⟩ := h
  have hend := r.endFreqKhz.toNat_lt
  unfold RegRule.Narrow at hr
  rcases Nat.le_total (1000 * f) (r.startFreqKhz.toNat + 2000000) with hle | hle
  · -- near the start of the range
    have hsub : sub32 (mhzToKhz f) r.startFreqKhz.toNat = 1000 * f - r.startFreqKhz.toNat := by
      unfold sub32 mhzToKhz
      omega
    have hdist : abs32 (sub32 (mhzToKhz f) r.startFreqKhz.toNat) ≤ 2 * 1000000 := by
      rw [hsub, abs32, if_neg (by omega)]
      omega
    simp [freqInRuleBand, hdist]
  · -- near its end, which is above the frequency
    have hsub : sub32 (mhzToKhz f) r.endFreqKhz.toNat
        = 1000 * f + 2 ^ 32 - r.endFreqKhz.toNat := by
      unfold sub32 mhzToKhz
      omega
    have hdist : abs32 (sub32 (mhzToKhz f) r.endFreqKhz.toNat) ≤ 2 * 1000000 := by
      rw [hsub, abs32, if_pos (by omega)]
      omega
    simp [freqInRuleBand, hdist]

/-- The loop finds the rules that contain the channel, if these are narrow. -/
theorem ruleLoop_iff (p : RegRule → Bool) (hf : 10 ≤ f) (hf' : f < 4000000) (found : Bool)
    (hrules : ∀ r ∈ rules, r.Narrow) :
    ruleLoop p f bw found rules = true ↔ ∃ r ∈ rules, r.Contains f ∧ p r = true := by
  induction rules generalizing found with
  | nil => simp [ruleLoop]
  | cons r rules ih =>
    have htail := ih (found || freqInRuleBand r (mhzToKhz f))
      fun r' hr' => hrules r' (List.mem_cons_of_mem _ hr')
    have hhead : ((found || freqInRuleBand r (mhzToKhz f))
        && regDoesBwFit r (mhzToKhz f) (mhzToKhz bw) && p r) = true
          ↔ r.Contains f ∧ p r = true := by
      simp only [Bool.and_eq_true, regDoesBwFit_iff hf hf']
      constructor
      · exact fun h => ⟨h.1.2, h.2⟩
      · rintro ⟨hc, hp⟩
        have hband := freqInRuleBand_of_contains (hrules r List.mem_cons_self) hc
        exact ⟨⟨by simp [hband], hc⟩, hp⟩
    simp only [ruleLoop]
    by_cases h : r.Contains f ∧ p r = true
    · rw [if_pos (hhead.mpr h)]
      simp [h]
    · rw [if_neg fun h' => h (hhead.mp h'), htail]
      simp [h]

theorem freqRegInfoRegd_iff (hf : 10 ≤ f) (hf' : f < 4000000) (hrules : ∀ r ∈ rules, r.Narrow) :
    freqRegInfoRegd f bw rules = true ↔ ∃ r ∈ rules, r.Contains f := by
  simp [freqRegInfoRegd, ruleLoop_iff _ hf hf' _ hrules]

theorem freqNeedDfs_iff (hf : 10 ≤ f) (hf' : f < 4000000) (hrules : ∀ r ∈ rules, r.Narrow) :
    freqNeedDfs f bw rules = true ↔ ∃ r ∈ rules, r.Contains f ∧ r.Dfs := by
  simp [freqNeedDfs, ruleLoop_iff _ hf hf' _ hrules, RegRule.Dfs]

end Rules

end Fullmac.Reg
