import Fullmac.Reg.Channels
import Mathlib.Data.List.GetD

/-!
# Which channels are available

Reference: `host/core/host_apis.c`, `ssv6xxx_wifi_update_available_channel` to
`ssv6xxx_wifi_align_available_channel_mask`.

A channel is available when a rule of the current domain contains it. A channel of 5 GHz also needs
the support of the band, and in an access point that does without the detection of radar, a domain
that does not ask for it there; channels of 2.4 GHz are never held back for radar.

The mask of the available channels says so for every channel. The test of a single channel agrees
with it as long as 5 GHz is supported. Without, it looks up the number of every channel in the mask
of 2.4 GHz.
-/

namespace Fullmac.Reg

open Rx (HwMode)

/-! ## Known channels -/

variable {ch bitNum : ℕ}

/-- The frequency of the channel with this number in its band, in MHz. -/
def channelFreq (ch bitNum : ℕ) : ℕ := (entry (tableOf ch) bitNum).centerFreq

theorem lt_length_of_chToBitmask (h : chToBitmask ch = some bitNum) :
    bitNum < (tableOf ch).length ∧ (entry (tableOf ch) bitNum).hwValue = ch := by
  obtain ⟨hlt, hhw, -⟩ := List.findIdx?_eq_some_iff_getElem.mp h
  refine ⟨hlt, ?_⟩
  rw [entry, List.getD_eq_getElem _ _ hlt]
  simpa using hhw

/-- The frequencies of known channels. -/
theorem channelFreq_bounds (hch : 1 ≤ ch) (h : chToBitmask ch = some bitNum) :
    2412 ≤ channelFreq ch bitNum ∧ channelFreq ch bitNum ≤ 5825 := by
  obtain ⟨hlt, hhw⟩ := lt_length_of_chToBitmask h
  have hall : ∀ c ∈ tableOf ch, 1 ≤ c.hwValue → 2412 ≤ c.centerFreq ∧ c.centerFreq ≤ 5825 := by
    unfold tableOf
    split <;> decide
  refine hall _ ?_ (by rw [hhw]; exact hch)
  rw [entry, List.getD_eq_getElem _ _ hlt]
  exact List.getElem_mem hlt

/-- The number of a known channel is one of its mask. -/
theorem bitNum_lt (h : chToBitmask ch = some bitNum) :
    if Is5gBand ch then bitNum < max5gChannelNum else bitNum < max2gChannelNum := by
  have hlt := (lt_length_of_chToBitmask h).1
  unfold tableOf at hlt
  split <;> rename_i h5 <;> simpa [h5, chantable5ghz, chantable2ghz, max5gChannelNum,
    max2gChannelNum] using hlt

/-! ## The state -/

section State

variable {regdom : List Regdomain} {cfg : RegCfg} {mode : HwMode} {s : RegState}

/-- Without a domain the masks are empty. -/
def RegInv (regdom : List Regdomain) (s : RegState) : Prop :=
  getRegdomain regdom s.alpha2 = none → s.available2g = 0 ∧ s.available5g = 0

@[simp] theorem updateAvailableChannel_alpha2 :
    (updateAvailableChannel regdom cfg s).alpha2 = s.alpha2 := by
  unfold updateAvailableChannel
  split <;> rfl

theorem RegInv.update (h : RegInv regdom s) :
    RegInv regdom (updateAvailableChannel regdom cfg s) := by
  intro hnone
  rw [updateAvailableChannel_alpha2] at hnone
  simpa [updateAvailableChannel, hnone] using h hnone

theorem RegInv.step (h : RegInv regdom s) (r : RegCfg × RegOp) :
    RegInv regdom (regStep regdom s r) := by
  obtain ⟨cfg, op⟩ := r
  cases op with
  | setReg reg =>
    simp only [regStep, setReg]
    split
    case h_1 => exact h
    case h_2 d hd => exact fun hnone => by simp_all
  | update => exact h.update
  | isAvailable mode ch =>
    have hstate : (isAvailableChannel regdom cfg mode ch s).2 = s ∨
        (isAvailableChannel regdom cfg mode ch s).2 = updateAvailableChannel regdom cfg s := by
      unfold isAvailableChannel
      grind
    simp only [regStep]
    rcases hstate with hs | hs <;> rw [hs]
    · exact h
    · exact h.update

/-- What every run keeps. -/
theorem regInv_run (rs : List (RegCfg × RegOp)) :
    RegInv regdom (rs.foldl (regStep regdom) regInit) :=
  List.foldlRecOn rs (regStep regdom) (fun _ => ⟨rfl, rfl⟩) fun _ h r _ => h.step r

@[simp] theorem currentRules_update :
    currentRules regdom (updateAvailableChannel regdom cfg s) = currentRules regdom s := by
  simp [currentRules]

/-- The mask of 2.4 GHz after an update. -/
theorem available2g_update (h : RegInv regdom s) (i : ℕ) :
    (updateAvailableChannel regdom cfg s).available2g.getLsbD i
      = (decide (i < max2gChannelNum)
          && freqRegInfoRegd (entry chantable2ghz i).centerFreq bw (currentRules regdom s)) := by
  cases hd : getRegdomain regdom s.alpha2 with
  | none => simp [updateAvailableChannel, hd, currentRules, (h hd).1, freqRegInfoRegd, ruleLoop]
  | some d =>
    simp only [updateAvailableChannel, hd, Masks.getLsbD_setWhere, currentRules, Option.map_some,
      Option.getD_some]
    by_cases hi : i < max2gChannelNum
    · have hw : i < 16 := hi
      simp [hi, hw]
    · simp [hi]

/-- The mask of 5 GHz after an update. -/
theorem available5g_update (cfg : RegCfg) (h : RegInv regdom s) (i : ℕ) :
    (updateAvailableChannel regdom cfg s).available5g.getLsbD i
      = (cfg.support5g && decide (i < max5gChannelNum)
          && freqRegInfoRegd (entry chantable5ghz i).centerFreq bw (currentRules regdom s)) := by
  cases hd : getRegdomain regdom s.alpha2 with
  | none => simp [updateAvailableChannel, hd, currentRules, (h hd).2, freqRegInfoRegd, ruleLoop]
  | some d =>
    cases hc : cfg.support5g
    · simp [updateAvailableChannel, hd, hc]
    · simp only [updateAvailableChannel, hd, hc, if_true, Masks.getLsbD_setWhere, currentRules,
        Option.map_some, Option.getD_some, Bool.true_and]
      by_cases hi : i < max5gChannelNum
      · have hw : i < 32 := hi.trans (by decide)
        simp [hi, hw]
      · simp [hi]

end State

/-! ## Availability -/

/-- The channel is available under the rules of a domain. -/
def Available (rules : List RegRule) (cfg : RegCfg) (mode : HwMode) (ch f : ℕ) : Prop :=
  (∃ r ∈ rules, r.Contains f) ∧ (Is5gBand ch → cfg.support5g = true) ∧
    ¬ (Is5gBand ch ∧ mode = .ap ∧ cfg.apNoDfs = true ∧ ∃ r ∈ rules, r.Contains f ∧ r.Dfs)

/-- The bit of the channel survives an update followed by an alignment of full masks. -/
def Survives (regdom : List Regdomain) (cfg : RegCfg) (mode : HwMode) (ch bitNum : ℕ)
    (s : RegState) : Bool :=
  let masks := alignAvailableChannelMask regdom cfg mode (updateAvailableChannel regdom cfg s)
    (BitVec.allOnes 16) (BitVec.allOnes 32)
  if Is5gBand ch then masks.2.getLsbD bitNum else masks.1.getLsbD bitNum

section Available

variable {regdom : List Regdomain} {cfg : RegCfg} {mode : HwMode} {s : RegState}

/-- The bit of a channel of 5 GHz. -/
theorem survives_5g (hinv : RegInv regdom s) (h5 : Is5gBand ch) (hlt : bitNum < max5gChannelNum) :
    Survives regdom cfg mode ch bitNum s
      = (cfg.support5g && freqRegInfoRegd (channelFreq ch bitNum) bw (currentRules regdom s)
          && !(cfg.apNoDfs
            && (freqNeedDfs (channelFreq ch bitNum) bw (currentRules regdom s)
              && mode == .ap))) := by
  simp only [Survives, h5, if_true, alignAvailableChannelMask, currentRules_update,
    BitVec.allOnes_and, channelFreq, tableOf]
  cases hc : cfg.support5g with
  | false => simp
  | true =>
    have hbit := available5g_update cfg hinv bitNum
    simp only [hc, hlt, decide_true, Bool.true_and] at hbit
    cases hn : cfg.apNoDfs with
    | false => simpa using hbit
    | true => simp only [if_true, Masks.getLsbD_clearWhere, hbit, hlt, decide_true, Bool.true_and]

/-- The bit of a channel of 2.4 GHz. -/
theorem survives_2g (hinv : RegInv regdom s) (h5 : ¬ Is5gBand ch) (hlt : bitNum < max2gChannelNum) :
    Survives regdom cfg mode ch bitNum s
      = freqRegInfoRegd (channelFreq ch bitNum) bw (currentRules regdom s) := by
  simp only [Survives, h5, if_false, alignAvailableChannelMask, BitVec.allOnes_and, channelFreq,
    tableOf, available2g_update hinv, hlt, decide_true, Bool.true_and]

/-- The masks say which channels are available. -/
theorem survives_iff (cfg : RegCfg) (mode : HwMode) (hinv : RegInv regdom s)
    (hrules : ∀ r ∈ currentRules regdom s, r.Narrow) (hch : 1 ≤ ch)
    (hbit : chToBitmask ch = some bitNum) :
    Survives regdom cfg mode ch bitNum s = true
      ↔ Available (currentRules regdom s) cfg mode ch (channelFreq ch bitNum) := by
  obtain ⟨hlo, hhi⟩ := channelFreq_bounds hch hbit
  have hlt := bitNum_lt hbit
  have hinfo := freqRegInfoRegd_iff (f := channelFreq ch bitNum) (by omega) (by omega) hrules
  have hdfs := freqNeedDfs_iff (f := channelFreq ch bitNum) (by omega) (by omega) hrules
  unfold Available
  rw [← hinfo, ← hdfs]
  by_cases h5 : Is5gBand ch
  · rw [if_pos h5] at hlt
    rw [survives_5g hinv h5 hlt]
    simp only [Bool.and_eq_true, Bool.not_eq_true', Bool.and_eq_false_iff, beq_eq_false_iff_ne, h5,
      true_imp_iff, true_and]
    grind
  · rw [if_neg h5] at hlt
    rw [survives_2g hinv h5 hlt]
    simp [h5]

/-- The test of a single channel agrees with the masks where its band is supported. -/
theorem isAvailableChannel_eq_survives (hbit : chToBitmask ch = some bitNum)
    (hband : cfg.support5g = true ∨ ¬ Is5gBand ch) :
    (isAvailableChannel regdom cfg mode ch s).1 = Survives regdom cfg mode ch bitNum s := by
  have hlt := bitNum_lt hbit
  by_cases h5 : Is5gBand ch
  · rw [if_pos h5] at hlt
    have hc : cfg.support5g = true := by simpa [h5] using hband
    simp only [isAvailableChannel, hbit, hc, h5, if_true, Survives, alignAvailableChannelMask,
      currentRules_update, BitVec.allOnes_and]
    cases hn : cfg.apNoDfs with
    | false =>
      simp only [Bool.false_eq_true, if_false]
      cases (updateAvailableChannel regdom cfg s).available5g.getLsbD bitNum <;> rfl
    | true =>
      simp only [if_true, Masks.getLsbD_clearWhere, hlt, decide_true, Bool.true_and]
      grind
  · simp only [Survives, alignAvailableChannelMask, h5, if_false, BitVec.allOnes_and]
    cases hc : cfg.support5g <;> simp [isAvailableChannel, hbit, hc, h5]

/-- Without the support of 5 GHz the test of a single channel reads the mask of 2.4 GHz, for a
channel of 5 GHz as well. -/
theorem isAvailableChannel_unsupported (hbit : chToBitmask ch = some bitNum)
    (hc : cfg.support5g = false) :
    (isAvailableChannel regdom cfg mode ch s).1
      = (updateAvailableChannel regdom cfg s).available2g.getLsbD bitNum := by
  simp [isAvailableChannel, hbit, hc]

end Available

/-- After every run, the bit of a known channel survives an update and an alignment of full masks
exactly when the channel is available under the rules of the current domain, and so does the test of
the single channel, if its band is supported. -/
theorem available_iff (regdom : List Regdomain) (hregdom : ∀ d ∈ regdom, ∀ r ∈ d.regRules, r.Narrow)
    (rs : List (RegCfg × RegOp)) (cfg : RegCfg) (mode : HwMode) (hch : 1 ≤ ch)
    (hbit : chToBitmask ch = some bitNum) :
    let s := rs.foldl (regStep regdom) regInit
    let rules := currentRules regdom s
    (Survives regdom cfg mode ch bitNum s = true
        ↔ Available rules cfg mode ch (channelFreq ch bitNum)) ∧
      (cfg.support5g = true ∨ ¬ Is5gBand ch →
        ((isAvailableChannel regdom cfg mode ch s).1 = true
          ↔ Available rules cfg mode ch (channelFreq ch bitNum))) := by
  intro s rules
  have hrules : ∀ r ∈ rules, r.Narrow := by
    intro r hr
    cases hd : getRegdomain regdom s.alpha2 with
    | none => simp [rules, currentRules, hd] at hr
    | some d =>
      have hr' : r ∈ d.regRules := by simpa [rules, currentRules, hd] using hr
      exact hregdom d (List.mem_of_find?_eq_some hd) r hr'
  have hsurv := survives_iff cfg mode (regInv_run rs) hrules hch hbit
  refine ⟨hsurv, fun hband => ?_⟩
  rw [isAvailableChannel_eq_survives hbit hband]
  exact hsurv

/-- A domain with one rule, for 2.4 GHz and with the detection of radar. -/
def radarDomain : List Regdomain := [⟨(48, 48), [⟨2402000, 2482000, 0x10⟩]⟩]

/-- Channel 6 of that domain, in an access point. -/
theorem available_iff_radarDomain :
    let s := [((⟨true, true⟩ : RegCfg), RegOp.setReg (48, 48))].foldl (regStep radarDomain) regInit
    (Survives radarDomain ⟨true, true⟩ .ap 6 6 s = true
        ↔ Available (currentRules radarDomain s) ⟨true, true⟩ .ap 6 (channelFreq 6 6)) ∧
      ((⟨true, true⟩ : RegCfg).support5g = true ∨ ¬ Is5gBand 6 →
        ((isAvailableChannel radarDomain ⟨true, true⟩ .ap 6 s).1 = true
          ↔ Available (currentRules radarDomain s) ⟨true, true⟩ .ap 6 (channelFreq 6 6))) :=
  available_iff radarDomain (by decide) [(⟨true, true⟩, .setReg (48, 48))] ⟨true, true⟩ .ap
    (by decide) (by decide)

/-- A channel of 2.4 GHz is available to an access point that does without the detection of radar,
though the rule that contains it asks for it. -/
theorem available_in_radarDomain :
    let s := [((⟨true, true⟩ : RegCfg), RegOp.setReg (48, 48))].foldl (regStep radarDomain) regInit
    let rules := currentRules radarDomain s
    let cfg : RegCfg := ⟨true, true⟩
    (isAvailableChannel radarDomain cfg .ap 6 s).1 = true ∧
      Survives radarDomain cfg .ap 6 6 s = true ∧
      ¬ ((∃ r ∈ rules, r.Contains (channelFreq 6 6)) ∧
        ¬ (Is5gBand 6 ∧ cfg.support5g = false) ∧
        ¬ (HwMode.ap = .ap ∧ cfg.apNoDfs = true ∧
          ∃ r ∈ rules, r.Contains (channelFreq 6 6) ∧ r.Dfs)) := by
  intro s rules cfg
  have havail : (isAvailableChannel radarDomain cfg .ap 6 s).1 = true := by decide
  have hsurv : Survives radarDomain cfg .ap 6 6 s = true := by decide
  have hdfs : ∃ r ∈ rules, r.Contains (channelFreq 6 6) ∧ r.Dfs := by decide
  exact ⟨havail, hsurv, fun h => h.2.2 ⟨rfl, rfl, hdfs⟩⟩

end Fullmac.Reg
