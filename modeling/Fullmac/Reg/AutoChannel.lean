import Fullmac.Lib.Extremum
import Fullmac.Mlme.Model
import Fullmac.Reg.Hopping
import Mathlib.Data.Finset.Max
import Mathlib.Data.Prod.Lex

/-!
# Automatic channel selection

Reference: `host/core/host_apis.c`, `_ssv6xxx_wifi_auto_channel_selection` and
`ssv6xxx_aplist_get_count_by_channel`.

An access point that is to find a channel for itself scans those of two masks, one for each band. In
each band the half of the channels with the higher edcca counts is dropped, one after the other, and
of what survives the channel with the fewest packets is taken. The code means to settle a tie by the
number of access points on the channels, but takes the later channel before it compares them: the
comparison is between a channel and itself.
-/

namespace Fullmac.Reg

open Extremum (lastMin lastMinStep IsLastMin)

/-! ## The function -/

/-- `ssv6xxx_aplist_get_count_by_channel`, over a list of `n`. -/
def aplistGetCountByChannel (n : ℕ) (l : Mlme.ApList) (channel : ℕ) : ℕ :=
  (List.range n).countP fun i => (l i).channelId.toNat = channel

/-- How one of the `g_acs_channel_scanning_loop` scans ends. -/
inductive ScanEnd
  | startFailed | timedOut | done
deriving DecidableEq, Repr

/-- What the function is given and finds. The counts are those of the device after the scans, for
the band of 2.4 GHz (`false`) and for that of 5 GHz. -/
structure AcsInput where
  channelMask : BitVec 16
  channel5gMask : BitVec 32
  support5g : Bool
  scans : List ScanEnd
  edcca : Bool → ℕ → UInt32
  packet : Bool → ℕ → UInt32
  numOfApList : ℕ
  apList : Mlme.ApList

/-- A word of ones. -/
def allOnes32 : ℕ := 0xFFFFFFFF

/-- The last channel of a mask, or `best` if there is none. -/
def lastChannel {w : ℕ} (mask : BitVec w) (num best : ℕ) : ℕ :=
  (List.range num).foldl (fun best i => if mask.getLsbD i then i else best) best

/-- The number of channels of a mask. -/
def totalChannel {w : ℕ} (mask : BitVec w) (num : ℕ) : ℕ := (List.range num).countP mask.getLsbD

/-- The scans, up to the first that fails. -/
def scanLoop : List ScanEnd → ScanEnd
  | [] => .done
  | .done :: scans => scanLoop scans
  | e :: _ => e

/-- The inner loop of the filter at channel `i`, with `MAX_COUNT` and `WORST_CHANNEL`. -/
def worstStep (edcca : ℕ → UInt32) (st : ℕ × ℕ) (i : ℕ) : ℕ × ℕ :=
  let count := (edcca i).toNat
  let st := if st.1 = allOnes32 ∧ st.2 = allOnes32 then (count, i) else st
  if st.1 ≤ count then (count, i) else st

/-- The inner loop of the filter: `WORST_CHANNEL`. -/
def worstChannel {w : ℕ} (edcca : ℕ → UInt32) (num : ℕ) (mask : BitVec w) : ℕ :=
  ((List.range num).foldl (fun st i => if mask.getLsbD i then worstStep edcca st i else st)
    (allOnes32, allOnes32)).2

/-- The body of the filter: one channel less. -/
def filterStep {w : ℕ} (edcca : ℕ → UInt32) (num : ℕ) (mask : BitVec w) : BitVec w :=
  mask &&& ~~~ BitVec.twoPow w (worstChannel edcca num mask)

/-- The filter of one band. -/
def filterChannels {w : ℕ} (edcca : ℕ → UInt32) (num : ℕ) (mask : BitVec w) : BitVec w :=
  (filterStep edcca num)^[totalChannel mask num >>> 1] mask

/-- The variables `minCount`, `best_channel` and `b5G`. -/
structure BestChannel where
  minCount : ℕ
  bestChannel : ℕ
  b5g : Bool

/-- The choice at channel `i` of a band. -/
def bestStep (x : AcsInput) (b5g : Bool) (st : BestChannel) (i : ℕ) : BestChannel :=
  let count := (x.packet b5g i).toNat
  let st := if st.minCount = allOnes32 ∧ st.bestChannel = allOnes32 then ⟨count, i, b5g⟩ else st
  let st := if count ≤ st.minCount then ⟨count, i, b5g⟩ else st
  if count = st.minCount then
    let apNum1 := aplistGetCountByChannel x.numOfApList x.apList (currentChannel b5g st.bestChannel)
    let apNum2 := aplistGetCountByChannel x.numOfApList x.apList (currentChannel b5g i)
    if apNum2 ≤ apNum1 then ⟨count, i, b5g⟩ else st
  else st

/-- The choice over one band. -/
def bestOfBand {w : ℕ} (x : AcsInput) (b5g : Bool) (num : ℕ) (mask : BitVec w) (st : BestChannel) :
    BestChannel :=
  (List.range num).foldl (fun st i => if mask.getLsbD i then bestStep x b5g st i else st) st

/-- From the filter on. -/
def chooseChannel (x : AcsInput) : Option ℕ :=
  let st := bestOfBand x false max2gChannelNum
    (filterChannels (x.edcca false) max2gChannelNum x.channelMask) ⟨allOnes32, allOnes32, false⟩
  let st := if x.support5g then
      bestOfBand x true max5gChannelNum
        (filterChannels (x.edcca true) max5gChannelNum x.channel5gMask) st
    else st
  chBitmaskToNum st.b5g (if st.bestChannel = allOnes32 then 6 else st.bestChannel)

/-- `_ssv6xxx_wifi_auto_channel_selection`, with `none` for -1. -/
def autoChannelSelection (x : AcsInput) : Option ℕ :=
  let total2g := totalChannel x.channelMask max2gChannelNum
  let total5g := if x.support5g then totalChannel x.channel5gMask max5gChannelNum else 0
  let best := lastChannel x.channelMask max2gChannelNum 6
  let best := if x.support5g then lastChannel x.channel5gMask max5gChannelNum best else best
  let b5g := decide (0 < total5g)
  if total2g + total5g = 1 ∨ total2g = 0 ∧ total5g = 0 then chBitmaskToNum b5g best
  else
    match scanLoop x.scans with
    | .startFailed => none
    | .timedOut => chBitmaskToNum b5g best
    | .done => chooseChannel x

/-! ## The filter -/

section Filter

variable {w : ℕ} {edcca : ℕ → UInt32} {num : ℕ} {mask : BitVec w} {i d : ℕ}

/-- The channels of a mask. -/
def chans (num : ℕ) (mask : BitVec w) : Finset ℕ :=
  (Finset.range num).filter fun i => mask.getLsbD i = true

/-- Channel `d` is dropped before channel `i`: its edcca count is higher, or it is the later one of
two with the same. -/
def Worse (edcca : ℕ → UInt32) (d i : ℕ) : Prop :=
  (edcca i).toNat < (edcca d).toNat ∨ (edcca i).toNat = (edcca d).toNat ∧ i < d

instance : Decidable (Worse edcca d i) := inferInstanceAs (Decidable (_ ∨ _))

/-- How many channels are dropped before channel `i`, if any are. -/
def numWorse (edcca : ℕ → UInt32) (s : Finset ℕ) (i : ℕ) : ℕ :=
  (s.filter fun d => Worse edcca d i).card

theorem mem_chans : i ∈ chans num mask ↔ i < num ∧ mask.getLsbD i = true := by
  rw [chans, Finset.mem_filter, Finset.mem_range]

theorem mem_filter_range : i ∈ (List.range num).filter mask.getLsbD ↔ i ∈ chans num mask := by
  rw [List.mem_filter, List.mem_range, mem_chans]

theorem totalChannel_eq (mask : BitVec w) (num : ℕ) :
    totalChannel mask num = (chans num mask).card := by
  have hdec : mask.getLsbD = fun i => decide (mask.getLsbD i = true) := by simp
  rw [totalChannel, List.countP_eq_length_filter, hdec]
  rfl

/-- Earlier numbers come first. -/
theorem pairwise_filter_range (mask : BitVec w) (num : ℕ) :
    ((List.range num).filter mask.getLsbD).Pairwise (· < ·) :=
  List.pairwise_lt_range.filter _

/-- The greatest edcca count is the least one the other way around. -/
def edccaKey (edcca : ℕ → UInt32) (i : ℕ) : ℕᵒᵈ := OrderDual.toDual (edcca i).toNat

/-- The variables of the filter tell the last channel with the greatest count. -/
theorem worstStep_foldl {is : List ℕ} (his : ∀ i ∈ is, i < allOnes32) :
    is.foldl (worstStep edcca) (allOnes32, allOnes32)
      = (lastMin (edccaKey edcca) is).elim (allOnes32, allOnes32) fun i =>
        ((edcca i).toNat, i) := by
  induction is using List.reverseRecOn with
  | nil => rfl
  | append_singleton is i ih =>
    have hlast : lastMin (edccaKey edcca) (is ++ [i])
        = lastMinStep (edccaKey edcca) (lastMin (edccaKey edcca) is) i := List.foldl_concat ..
    rw [List.foldl_concat, hlast, ih fun j hj => his j (List.mem_append_left _ hj)]
    cases hb : lastMin (edccaKey edcca) is with
    | none => simp [worstStep, lastMinStep]
    | some b =>
      have hb' : b ≠ allOnes32 := (his b (List.mem_append_left _ (Extremum.lastMin_mem hb))).ne
      simp only [Option.elim_some, worstStep, lastMinStep, hb', and_false, if_false]
      by_cases hle : (edcca b).toNat ≤ (edcca i).toNat
      · rw [if_pos hle, if_pos (by exact hle)]
        rfl
      · rw [if_neg hle, if_neg (by exact hle)]
        rfl

/-- `WORST_CHANNEL` is a channel of the mask that is worse than all others. -/
theorem worstChannel_spec (edcca : ℕ → UInt32) (hnum : num ≤ allOnes32)
    (hne : (chans num mask).Nonempty) :
    worstChannel edcca num mask ∈ chans num mask ∧
      ∀ d ∈ chans num mask, d ≠ worstChannel edcca num mask →
        Worse edcca (worstChannel edcca num mask) d := by
  obtain ⟨i₀, hi₀⟩ := hne
  obtain ⟨c, hc, hmin⟩ := Extremum.lastMin_spec (f := edccaKey edcca)
    (pairwise_filter_range mask num) (fun a b h => Nat.lt_asymm h)
    (List.ne_nil_of_mem (mem_filter_range.mpr hi₀))
  have hworst : worstChannel edcca num mask = c := by
    rw [worstChannel, ← List.foldl_filter, worstStep_foldl, hc]
    · rfl
    · intro i hi
      exact (List.mem_range.mp (List.mem_of_mem_filter hi)).trans_le hnum
  rw [hworst]
  refine ⟨mem_filter_range.mp hmin.mem, fun d hd hne => ?_⟩
  have hle : (edcca d).toNat ≤ (edcca c).toNat := hmin.le d (mem_filter_range.mpr hd)
  rcases Nat.lt_or_gt_of_ne hne with hlt | hgt
  · rcases hle.lt_or_eq with h | h
    · exact .inl h
    · exact .inr ⟨h, hlt⟩
  · exact .inl (hmin.last d (mem_filter_range.mpr hd) hgt)

/-- One step of the filter drops it. -/
theorem chans_filterStep (num : ℕ) (mask : BitVec w) :
    chans num (filterStep edcca num mask)
      = (chans num mask).erase (worstChannel edcca num mask) := by
  ext i
  have hstep := Masks.getLsbD_clearStep mask true (worstChannel edcca num mask) i
  rw [if_pos rfl] at hstep
  simp only [mem_chans, Finset.mem_erase, filterStep, hstep, Bool.true_and, Bool.and_eq_true,
    Bool.not_eq_true', decide_eq_false_iff_not]
  tauto

/-- The filter leaves the channels that enough others are worse than. -/
theorem chans_iterate_filterStep (hnum : num ≤ allOnes32) {k : ℕ} (hk : k ≤ (chans num mask).card) :
    chans num ((filterStep edcca num)^[k] mask)
      = (chans num mask).filter fun i => k ≤ numWorse edcca (chans num mask) i := by
  induction k generalizing mask with
  | zero => simp
  | succ k ih =>
    obtain ⟨hmem, hworst⟩ := worstChannel_spec edcca hnum
      (Finset.card_pos.mp (Nat.zero_lt_of_lt hk))
    have hcard : k ≤ (chans num (filterStep edcca num mask)).card := by
      rw [chans_filterStep, Finset.card_erase_of_mem hmem]
      omega
    rw [Function.iterate_succ_apply, ih hcard, chans_filterStep]
    generalize worstChannel edcca num mask = c at hmem hworst
    ext i
    rw [Finset.mem_filter, Finset.mem_filter, Finset.mem_erase, and_assoc]
    rcases eq_or_ne i c with rfl | hne
    · -- nothing is worse than the worst
      have hnone : numWorse edcca (chans num mask) i = 0 := by
        rw [numWorse, Finset.card_eq_zero, Finset.filter_eq_empty_iff]
        intro d hd hdi
        rcases eq_or_ne d i with rfl | hne
        · unfold Worse at hdi
          omega
        · have hid := hworst d hd hne
          unfold Worse at hdi hid
          omega
      rw [hnone]
      simp
    · -- the worst is worse than any other
      refine and_iff_right hne |>.trans (and_congr_right fun hi => ?_)
      have hsucc : numWorse edcca (chans num mask) i
          = numWorse edcca ((chans num mask).erase c) i + 1 := by
        have hcmem : c ∈ (chans num mask).filter fun d => Worse edcca d i :=
          Finset.mem_filter.mpr ⟨hmem, hworst i hi hne⟩
        rw [numWorse, numWorse, Finset.filter_erase, Finset.card_erase_add_one hcmem]
      omega

/-- A channel of the mask survives the filter. -/
def BandSurvives (edcca : ℕ → UInt32) (num : ℕ) (mask : BitVec w) (i : ℕ) : Prop :=
  i ∈ chans num mask ∧ (chans num mask).card / 2 ≤ numWorse edcca (chans num mask) i

instance : Decidable (BandSurvives edcca num mask i) := inferInstanceAs (Decidable (_ ∧ _))

theorem mem_chans_filterChannels (hnum : num ≤ allOnes32) :
    i ∈ chans num (filterChannels edcca num mask) ↔ BandSurvives edcca num mask i := by
  have hle : totalChannel mask num >>> 1 ≤ (chans num mask).card := by
    rw [totalChannel_eq, Nat.shiftRight_eq_div_pow]
    omega
  rw [filterChannels, chans_iterate_filterStep hnum hle, Finset.mem_filter, totalChannel_eq,
    Nat.shiftRight_eq_div_pow, pow_one]
  rfl

end Filter

/-! ## The choice -/

/-- A channel: its band, and its number in the table of the band. -/
structure Chan where
  b5g : Bool
  idx : ℕ
deriving DecidableEq

variable {x : AcsInput} {c d : Chan}

/-- The channels of 2.4 GHz come first. -/
def Chan.Before (c d : Chan) : Prop :=
  c.b5g = false ∧ d.b5g = true ∨ c.b5g = d.b5g ∧ c.idx < d.idx

/-- Its packet count. -/
def Chan.packets (x : AcsInput) (c : Chan) : ℕ := (x.packet c.b5g c.idx).toNat

/-- The number of access points that are listed on it. -/
def Chan.apNum (x : AcsInput) (c : Chan) : ℕ :=
  aplistGetCountByChannel x.numOfApList x.apList (currentChannel c.b5g c.idx)

/-- The channels asked for. -/
def Chan.Asked (x : AcsInput) (c : Chan) : Prop :=
  if c.b5g then x.support5g = true ∧ c.idx ∈ chans max5gChannelNum x.channel5gMask
  else c.idx ∈ chans max2gChannelNum x.channelMask

/-- Among the channels of its band there are half as many again, rounded down, that are dropped
first. -/
def Chan.Survives (x : AcsInput) (c : Chan) : Prop :=
  if c.b5g then
    x.support5g = true ∧ BandSurvives (x.edcca true) max5gChannelNum x.channel5gMask c.idx
  else BandSurvives (x.edcca false) max2gChannelNum x.channelMask c.idx

instance : Decidable (c.Survives x) :=
  inferInstanceAs (Decidable (if c.b5g then x.support5g = true ∧ _ else _))

/-- The channels asked for, counted. -/
def AcsInput.numAsked (x : AcsInput) : ℕ :=
  totalChannel x.channelMask max2gChannelNum
    + if x.support5g then totalChannel x.channel5gMask max5gChannelNum else 0

theorem Chan.before_asymm (c d : Chan) (h : c.Before d) : ¬ d.Before c := by
  unfold Chan.Before at *
  rcases h with ⟨h1, h2⟩ | ⟨h1, h2⟩
  · simp [h1, h2]
  · rw [h1]
    simp
    omega

theorem Chan.before_trichotomy (c d : Chan) : c.Before d ∨ c = d ∨ d.Before c := by
  obtain ⟨b, i⟩ := c
  obtain ⟨b', i'⟩ := d
  have htri := Nat.lt_trichotomy i i'
  cases b <;> cases b' <;> simp [Chan.Before]
  · exact htri
  · exact htri

/-- The channels of one band that are left, in their order. -/
def leftOfBand {w : ℕ} (b5g : Bool) (num : ℕ) (mask : BitVec w) : List Chan :=
  ((List.range num).filter mask.getLsbD).map (Chan.mk b5g)

/-- The channels that are left. -/
def leftChannels (x : AcsInput) : List Chan :=
  leftOfBand false max2gChannelNum (filterChannels (x.edcca false) max2gChannelNum x.channelMask)
    ++ if x.support5g then leftOfBand true max5gChannelNum
        (filterChannels (x.edcca true) max5gChannelNum x.channel5gMask)
      else []

theorem mem_leftOfBand {w : ℕ} {b5g : Bool} {num : ℕ} {mask : BitVec w} :
    c ∈ leftOfBand b5g num mask ↔ c.b5g = b5g ∧ c.idx ∈ chans num mask := by
  simp only [leftOfBand, List.mem_map, mem_filter_range]
  constructor
  · rintro ⟨i, hi, rfl⟩
    exact ⟨rfl, hi⟩
  · rintro ⟨rfl, hi⟩
    exact ⟨c.idx, hi, rfl⟩

/-- What is left is what survives. -/
theorem mem_leftChannels : c ∈ leftChannels x ↔ c.Survives x := by
  have h2 : max2gChannelNum ≤ allOnes32 := by decide
  have h5 : max5gChannelNum ≤ allOnes32 := by decide
  rw [leftChannels, List.mem_append, mem_leftOfBand, mem_chans_filterChannels h2, Chan.Survives]
  cases hb : c.b5g <;> cases hs : x.support5g <;>
    simp [mem_leftOfBand, mem_chans_filterChannels h5, hb]

theorem pairwise_leftChannels (x : AcsInput) : (leftChannels x).Pairwise Chan.Before := by
  have hband : ∀ {w : ℕ} (b5g : Bool) (num : ℕ) (mask : BitVec w),
      (leftOfBand b5g num mask).Pairwise Chan.Before := fun b5g num mask =>
    List.pairwise_map.mpr ((pairwise_filter_range mask num).imp fun h => .inr ⟨rfl, h⟩)
  refine List.pairwise_append.mpr ⟨hband _ _ _, ?_, fun c hc d hd => .inl ?_⟩
  · split
    · exact hband _ _ _
    · exact List.Pairwise.nil
  · split at hd
    · exact ⟨(mem_leftOfBand.mp hc).1, (mem_leftOfBand.mp hd).1⟩
    · exact absurd hd List.not_mem_nil

/-- The choice at a channel. The comparison of the numbers of access points changes nothing: where
it is made, the best channel is the channel itself. -/
theorem bestStep_eq (x : AcsInput) (b5g : Bool) (st : BestChannel) (i : ℕ) :
    bestStep x b5g st i =
      if st.minCount = allOnes32 ∧ st.bestChannel = allOnes32 ∨ (x.packet b5g i).toNat ≤ st.minCount
      then ⟨(x.packet b5g i).toNat, i, b5g⟩ else st := by
  unfold bestStep
  by_cases hnone : st.minCount = allOnes32 ∧ st.bestChannel = allOnes32
  · simp [hnone]
  · by_cases hle : (x.packet b5g i).toNat ≤ st.minCount
    · simp [hnone, hle]
    · have hne : (x.packet b5g i).toNat ≠ st.minCount := fun h => hle h.le
      simp [hnone, hle, hne]

/-- The variables of the choice tell the last channel with the least packet count. -/
theorem bestStep_foldl {cs : List Chan} (hcs : ∀ c ∈ cs, c.idx < allOnes32) :
    cs.foldl (fun st c => bestStep x c.b5g st c.idx) ⟨allOnes32, allOnes32, false⟩
      = (lastMin (Chan.packets x) cs).elim ⟨allOnes32, allOnes32, false⟩
          fun c => ⟨c.packets x, c.idx, c.b5g⟩ := by
  induction cs using List.reverseRecOn with
  | nil => rfl
  | append_singleton cs c ih =>
    have hlast : lastMin (Chan.packets x) (cs ++ [c])
        = lastMinStep (Chan.packets x) (lastMin (Chan.packets x) cs) c := List.foldl_concat ..
    rw [List.foldl_concat, hlast, ih fun d hd => hcs d (List.mem_append_left _ hd), bestStep_eq]
    cases hb : lastMin (Chan.packets x) cs with
    | none => simp [lastMinStep, Chan.packets]
    | some b =>
      have hb' : b.idx ≠ allOnes32 := (hcs b (List.mem_append_left _ (Extremum.lastMin_mem hb))).ne
      simp only [Option.elim_some, lastMinStep, hb', and_false, false_or]
      by_cases hle : c.packets x ≤ b.packets x
      · rw [if_pos hle, if_pos (by exact hle)]
        rfl
      · rw [if_neg hle, if_neg (by exact hle)]
        rfl

/-- The choice goes over what is left. -/
theorem chooseChannel_eq (x : AcsInput) :
    chooseChannel x =
      let st := (leftChannels x).foldl (fun st c => bestStep x c.b5g st c.idx)
        ⟨allOnes32, allOnes32, false⟩
      chBitmaskToNum st.b5g (if st.bestChannel = allOnes32 then 6 else st.bestChannel) := by
  have hband : ∀ {w : ℕ} (b5g : Bool) (num : ℕ) (mask : BitVec w) (st : BestChannel),
      bestOfBand x b5g num mask st
        = (leftOfBand b5g num mask).foldl (fun st c => bestStep x c.b5g st c.idx) st := by
    intro w b5g num mask st
    rw [leftOfBand, List.foldl_map, List.foldl_filter, bestOfBand]
  simp only [chooseChannel, leftChannels, List.foldl_append, hband]
  split <;> rfl

/-- A band with channels has channels left. -/
theorem exists_bandSurvives {w : ℕ} (edcca : ℕ → UInt32) {num : ℕ} {mask : BitVec w}
    (hpos : 0 < totalChannel mask num) : ∃ i, BandSurvives edcca num mask i := by
  rw [totalChannel_eq] at hpos
  -- the one that all others are dropped before
  obtain ⟨i, hi, hleast⟩ := Finset.exists_min_image (chans num mask)
    (fun i => toLex ((edcca i).toNat, i)) (Finset.card_pos.mp hpos)
  have hmin : ∀ d ∈ chans num mask, d ≠ i → Worse edcca d i := by
    intro d hd hne
    have hle := hleast d hd
    rw [Prod.Lex.toLex_le_toLex] at hle
    unfold Worse
    omega
  have hall : (chans num mask).erase i ⊆ (chans num mask).filter fun d => Worse edcca d i := by
    intro d hd
    obtain ⟨hne, hd⟩ := Finset.mem_erase.mp hd
    exact Finset.mem_filter.mpr ⟨hd, hmin d hd hne⟩
  have hcard := Finset.card_le_card hall
  rw [Finset.card_erase_of_mem hi] at hcard
  exact ⟨i, hi, by unfold numWorse; omega⟩

theorem exists_survives (h : 0 < x.numAsked) : ∃ c : Chan, c.Survives x := by
  rcases Nat.eq_zero_or_pos (totalChannel x.channelMask max2gChannelNum) with hzero | hpos
  · unfold AcsInput.numAsked at h
    rw [hzero, Nat.zero_add] at h
    split at h
    case isTrue hsupport =>
      obtain ⟨i, hi⟩ := exists_bandSurvives (x.edcca true) h
      exact ⟨⟨true, i⟩, hsupport, hi⟩
    case isFalse => exact absurd h (Nat.lt_irrefl 0)
  · obtain ⟨i, hi⟩ := exists_bandSurvives (x.edcca false) hpos
    exact ⟨⟨false, i⟩, hi⟩

theorem Chan.Survives.asked (h : c.Survives x) : c.Asked x := by
  unfold Chan.Survives at h
  unfold Chan.Asked
  split
  case isTrue hb =>
    rw [if_pos hb] at h
    exact ⟨h.1, h.2.1⟩
  case isFalse hb =>
    rw [if_neg hb] at h
    exact h.1

theorem Chan.Survives.idx_lt (h : c.Survives x) :
    c.idx < if c.b5g then max5gChannelNum else max2gChannelNum := by
  have hasked := h.asked
  unfold Chan.Asked at hasked
  split
  case isTrue hb =>
    rw [if_pos hb] at hasked
    exact (mem_chans.mp hasked.2).1
  case isFalse hb =>
    rw [if_neg hb] at hasked
    exact (mem_chans.mp hasked).1

/-- The choice is the last of the surviving channels with the least packet count. -/
theorem chooseChannel_spec (hne : ∃ c : Chan, c.Survives x) :
    ∃ c, IsLastMin (Chan.packets x) Chan.Before (Chan.Survives x) c ∧
      chooseChannel x = chBitmaskToNum c.b5g c.idx := by
  obtain ⟨c₀, hc₀⟩ := hne
  obtain ⟨c, hc, hmin⟩ := Extremum.lastMin_spec (f := Chan.packets x) (pairwise_leftChannels x)
    Chan.before_asymm (List.ne_nil_of_mem (mem_leftChannels.mpr hc₀))
  have hlt : ∀ d ∈ leftChannels x, d.idx < allOnes32 := by
    intro d hd
    have hidx := (mem_leftChannels.mp hd).idx_lt
    have hnum : (if d.b5g then max5gChannelNum else max2gChannelNum) ≤ allOnes32 := by
      split <;> decide
    omega
  refine ⟨c, ⟨mem_leftChannels.mp hmin.mem, fun d hd => hmin.le d (mem_leftChannels.mpr hd),
    fun d hd => hmin.last d (mem_leftChannels.mpr hd)⟩, ?_⟩
  rw [chooseChannel_eq, bestStep_foldl hlt, hc]
  dsimp only [Option.elim_some]
  rw [if_neg (hlt c hmin.mem).ne]

/-! ## The claimed choice -/

/-- The number of some channel asked for that survives, has no more packets than any channel that
survives, and no more listed access points than those of its band with the same number of packets.
-/
def SelectsWell (x : AcsInput) (r : Option ℕ) : Prop :=
  ∃ c : Chan, c.Asked x ∧ r = chBitmaskToNum c.b5g c.idx ∧ c.Survives x ∧
    (∀ d : Chan, d.Survives x → c.packets x ≤ d.packets x) ∧
    ∀ d : Chan, d.Survives x → d.b5g = c.b5g → d.packets x = c.packets x → c.apNum x ≤ d.apNum x

/-- The last of the surviving channels with the least packet count has no more listed access points
than the others of its band. -/
def LastHasFewestAps (x : AcsInput) : Prop :=
  ∀ c, IsLastMin (Chan.packets x) Chan.Before (Chan.Survives x) c →
    ∀ d : Chan, d.Survives x → d.b5g = c.b5g → d.packets x = c.packets x → c.apNum x ≤ d.apNum x

/-- The numbers of the two bands differ. -/
theorem b5g_eq_of_chBitmaskToNum (hc : c.Survives x) (hd : d.Survives x)
    (h : chBitmaskToNum c.b5g c.idx = chBitmaskToNum d.b5g d.idx) : c.b5g = d.b5g := by
  have hbands : ∀ i < max5gChannelNum, ∀ j < max2gChannelNum,
      (entry chantable5ghz i).hwValue ≠ (entry chantable2ghz j).hwValue := by decide
  have hci := hc.idx_lt
  have hdi := hd.idx_lt
  cases hcb : c.b5g <;> cases hdb : d.b5g <;> simp only [hcb, hdb, if_true, Bool.false_eq_true,
    if_false, chBitmaskToNum] at h hci hdi ⊢
  · rw [if_pos hci, if_pos hdi] at h
    exact absurd (Option.some.inj h).symm (hbands _ hdi _ hci)
  · rw [if_pos hci, if_pos hdi] at h
    exact absurd (Option.some.inj h) (hbands _ hci _ hdi)

/-- With all scans done the function chooses. -/
theorem autoChannelSelection_eq (hscans : ∀ e ∈ x.scans, e = .done) (htwo : 2 ≤ x.numAsked) :
    autoChannelSelection x = chooseChannel x := by
  have hdone : ∀ scans : List ScanEnd, (∀ e ∈ scans, e = .done) → scanLoop scans = .done := by
    intro scans hall
    induction scans with
    | nil => rfl
    | cons e scans ih =>
      obtain rfl := hall e List.mem_cons_self
      exact ih fun e' he' => hall e' (List.mem_cons_of_mem _ he')
  unfold AcsInput.numAsked at htwo
  simp only [autoChannelSelection, hdone x.scans hscans]
  rw [if_neg]
  omega

/-- **Automatic channel selection.** With at least two channels and all scans done, the channel
returned is of those asked for, survives the filter and has the least packet count; it has the
fewest listed access points of its band among those with the same packet count exactly when the
last of them does. -/
theorem autoChannelSelection_selectsWell_iff (x : AcsInput) (hscans : ∀ e ∈ x.scans, e = .done)
    (htwo : 2 ≤ x.numAsked) : SelectsWell x (autoChannelSelection x) ↔ LastHasFewestAps x := by
  obtain ⟨c, hc, hchoose⟩ := chooseChannel_spec (exists_survives (x := x) (by omega))
  rw [autoChannelSelection_eq hscans htwo, hchoose]
  constructor
  · rintro ⟨c', -, hnum, hsurv, hmin, haps⟩ c₁ hc₁ d hd hband hpackets
    obtain rfl := hc.unique hc₁ (Chan.before_trichotomy c c₁)
    have hb := b5g_eq_of_chBitmaskToNum hc.mem hsurv hnum
    have hsame : c'.packets x = c.packets x := Nat.le_antisymm (hmin c hc.mem) (hc.le c' hsurv)
    have hap : c.apNum x = c'.apNum x := by simp only [Chan.apNum, currentChannel, hnum]
    rw [hap]
    exact haps d hd (hband.trans hb) (hpackets.trans hsame.symm)
  · intro hlast
    exact ⟨c, hc.mem.asked, rfl, hc.mem, hc.le, hlast c hc⟩

/-- Channels 1, 6 and 11, without packets, and an access point on channel 6. -/
def busySix : AcsInput where
  channelMask := 0x842
  channel5gMask := 0
  support5g := false
  scans := [.done]
  edcca _ _ := 0
  packet _ _ := 0
  numOfApList := 1
  apList _ := { Mlme.Bss.zero with channelId := 6 }

/-- Channel 6 is chosen although nobody is on channel 1. -/
theorem not_selectsWell_busySix : ¬ SelectsWell busySix (autoChannelSelection busySix) := by
  have hsix : autoChannelSelection busySix = some 6 := by decide +kernel
  have hone : Chan.Survives busySix ⟨false, 1⟩ := by decide +kernel
  rintro ⟨c, hasked, hnum, -, -, haps⟩
  have hband : c.b5g = false := by
    cases hb : c.b5g with
    | false => rfl
    | true =>
      rw [Chan.Asked, hb, if_pos rfl] at hasked
      exact absurd hasked.1 Bool.false_ne_true
  have hap : c.apNum busySix = 1 := by
    rw [Chan.apNum, currentChannel, ← hnum, hsix]
    rfl
  have hle := haps ⟨false, 1⟩ hone hband.symm rfl
  rw [hap] at hle
  revert hle
  decide

/-- Where no access point is listed, the function does what it is to do. -/
theorem selectsWell_noAps :
    SelectsWell { busySix with numOfApList := 0 }
      (autoChannelSelection { busySix with numOfApList := 0 }) :=
  (autoChannelSelection_selectsWell_iff { busySix with numOfApList := 0 } (by decide)
    (by decide)).mpr fun _ _ _ _ _ _ => Nat.le_refl 0

end Fullmac.Reg
