import Fullmac.Lib.RoundRobin
import Fullmac.Reg.Channels

/-!
# Hopping from channel to channel

Reference: `host/app/netmgr/SmartConfig/SmartConfig.c`, `get_next_channel`, `_SmartConfigInit` and
the masks in `SmartConfigPaserData`; `host/core/host_apis.c`, `ssv6xxx_wifi_ch_bitmask_to_num`.

While it looks for a phone the device goes through the channels of two masks. `get_next_channel`
takes one out of the working copies: of 2.4 GHz first, from the default channel on and around the
end, then of 5 GHz. When both copies are empty it fills them again and starts over, with a `goto`.
So the calls serve the channels of the masks in rounds (`getNextChannels_eq_serve`). Nothing looks
whether there is any channel in the masks. When there is none, the `goto` is taken for ever
(`getNextChannels_eq_none`).
-/

namespace Fullmac.Reg

open Rx (HwMode)
open RoundRobin (serve)

/-! ## `get_next_channel` -/

/-- `STA_DEFAULT_CHANNEL`. -/
def staDefaultChannel : ℕ := 6

/-- The working copies `ChannelMask` and `Channel5gMask`. -/
structure Work where
  channelMask : BitVec 16
  channel5gMask : BitVec 32

/-- `ssv6xxx_wifi_ch_bitmask_to_num`, with `none` for -1. -/
def chBitmaskToNum (b5gBand : Bool) (idx : ℕ) : Option ℕ :=
  if b5gBand then
    if idx < max5gChannelNum then some (entry chantable5ghz idx).hwValue else none
  else if idx < max2gChannelNum then some (entry chantable2ghz idx).hwValue else none

/-- What `current_channel` holds of it, a byte. -/
def currentChannel (b5gBand : Bool) (idx : ℕ) : ℕ := (chBitmaskToNum b5gBand idx).getD 0xff

/-- The loop over the channels of 2.4 GHz, with how many of them are left and the one at hand. -/
def scan2g (mask : BitVec 16) : ℕ → ℕ → Option ℕ
  | 0, _ => none
  | left + 1, i =>
    if mask.getLsbD i then some i else scan2g mask left ((i + 1) % max2gChannelNum)

/-- The loop over the channels of 5 GHz. -/
def scan5g (mask : BitVec 32) : Option ℕ := (List.range max5gChannelNum).find? mask.getLsbD

/-- `get_next_channel` from `REPEAT` on: the channel with the working copies behind it, or `none`
when both copies are exhausted. -/
def nextPass (cfg : RegCfg) (w : Work) : Option (ℕ × Work) :=
  match scan2g w.channelMask max2gChannelNum staDefaultChannel with
  | some i => some (currentChannel false i,
      { w with channelMask := w.channelMask &&& ~~~ BitVec.twoPow 16 i })
  | none =>
    match if cfg.support5g then scan5g w.channel5gMask else none with
    | some k => some (currentChannel true k,
        { w with channel5gMask := w.channel5gMask &&& ~~~ BitVec.twoPow 32 k })
    | none => none

/-- `get_next_channel`, for as many passes as there is fuel. The masks are `_g_SconfigChannelMask`
and `_g_Sconfig5gChannelMask`. -/
def getNextChannel (cfg : RegCfg) (masks : BitVec 16 × BitVec 32) : ℕ → Work → Option (ℕ × Work)
  | 0, _ => none
  | fuel + 1, w =>
    match nextPass cfg w with
    | some r => some r
    | none => getNextChannel cfg masks fuel ⟨masks.1, masks.2⟩

/-- The results of `n` calls. -/
def getNextChannels (cfg : RegCfg) (masks : BitVec 16 × BitVec 32) (fuel : ℕ) :
    ℕ → Work → Option (List ℕ)
  | 0, _ => some []
  | n + 1, w =>
    (getNextChannel cfg masks fuel w).bind fun r =>
      (getNextChannels cfg masks fuel n r.2).map (r.1 :: ·)

/-- The working copies after `_SmartConfigInit`, which adds the default channel the first time. -/
def loadWork (notReady : Bool) (masks : BitVec 16 × BitVec 32) : Work where
  channelMask := if notReady then masks.1 ||| BitVec.twoPow 16 staDefaultChannel else masks.1
  channel5gMask := masks.2

/-- The masks that `SmartConfigPaserData` makes of the channel it has locked on, before they are
aligned: the channel and up to two on either side. -/
def lockMasks (lockChannel : ℕ) : BitVec 16 × BitVec 32 :=
  match chToBitmask lockChannel with
  | none => (0, 0)
  | some chBit =>
    if Is5gBand lockChannel then (0, neighbours 32 max5gChannelNum chBit)
    else (neighbours 16 max2gChannelNum chBit, 0)
where
  neighbours (w num chBit : ℕ) : BitVec w :=
    BitVec.twoPow w chBit
      ||| (if 1 < chBit then BitVec.twoPow w (chBit - 1) else 0)
      ||| (if 2 < chBit then BitVec.twoPow w (chBit - 2) else 0)
      ||| (if chBit < num - 2 then BitVec.twoPow w (chBit + 2) else 0)
      ||| (if chBit < num - 1 then BitVec.twoPow w (chBit + 1) else 0)

/-! ## What hopping is for -/

/-- The channels of two masks. -/
def channelsOf (masks : BitVec 16 × BitVec 32) : List ℕ :=
  ((List.range max2gChannelNum).filter masks.1.getLsbD).map
      (fun i => (entry chantable2ghz i).hwValue)
    ++ ((List.range max5gChannelNum).filter masks.2.getLsbD).map
      fun k => (entry chantable5ghz k).hwValue

/-- Some channel is in one of the masks. -/
def HasChannel (masks : BitVec 16 × BitVec 32) : Prop :=
  (∃ i < max2gChannelNum, masks.1.getLsbD i = true) ∨
    ∃ k < max5gChannelNum, masks.2.getLsbD k = true

instance (masks : BitVec 16 × BitVec 32) : Decidable (HasChannel masks) :=
  inferInstanceAs (Decidable (_ ∨ _))

/-- Hopping from full working copies: any number of calls ends, every result is a channel of the
masks, and every round gives each of them once. -/
def Fair (cfg : RegCfg) (masks : BitVec 16 × BitVec 32) : Prop :=
  ∀ n, ∃ fuel rs, getNextChannels cfg masks fuel n (loadWork false masks) = some rs ∧
    (∀ c ∈ rs, c ∈ channelsOf masks) ∧
    ∀ r, (r + 1) * (channelsOf masks).length ≤ n →
      ((rs.drop (r * (channelsOf masks).length)).take (channelsOf masks).length).Perm
        (channelsOf masks)

/-! ## Rounds -/

/-- The channels of 2.4 GHz in the order of the loop. -/
def order2g : List ℕ :=
  (List.range max2gChannelNum).map fun j => (staDefaultChannel + j) % max2gChannelNum

/-- What is left of a round, in order. -/
def remaining (cfg : RegCfg) (w : Work) : List ℕ :=
  (order2g.filter w.channelMask.getLsbD).map (currentChannel false)
    ++ ((if cfg.support5g then List.range max5gChannelNum else []).filter
        w.channel5gMask.getLsbD).map (currentChannel true)

/-- The loop over the channels of 2.4 GHz takes them in order, around the end. -/
theorem scan2g_eq_find (mask : BitVec 16) (left : ℕ) {i : ℕ} (hi : i < max2gChannelNum) :
    scan2g mask left i
      = ((List.range left).map fun j => (i + j) % max2gChannelNum).find? mask.getLsbD := by
  induction left generalizing i with
  | zero => rfl
  | succ left ih =>
    have hshift : ((List.range left).map Nat.succ).map (fun j => (i + j) % max2gChannelNum)
        = (List.range left).map fun j => ((i + 1) % max2gChannelNum + j) % max2gChannelNum := by
      rw [List.map_map]
      refine List.map_congr_left fun j _ => ?_
      simp only [Function.comp_apply, Nat.mod_add_mod]
      congr 1
      omega
    have hfirst : (i + 0) % max2gChannelNum = i := Nat.mod_eq_of_lt hi
    rw [scan2g, List.range_succ_eq_map, List.map_cons, hshift, List.find?_cons, hfirst,
      ih (Nat.mod_lt _ (by decide))]
    cases mask.getLsbD i <;> rfl

theorem scan2g_eq_head (mask : BitVec 16) :
    scan2g mask max2gChannelNum staDefaultChannel = (order2g.filter mask.getLsbD).head? := by
  rw [scan2g_eq_find mask _ (by decide), List.head?_filter]
  rfl

theorem scan5g_eq_head (mask : BitVec 32) :
    scan5g mask = ((List.range max5gChannelNum).filter mask.getLsbD).head? := by
  rw [scan5g, List.head?_filter]

theorem order2g_nodup : order2g.Nodup := by decide

section Pass

variable {cfg : RegCfg} {masks : BitVec 16 × BitVec 32} {w : Work}

/-- A pass finds nothing when nothing is left of the round. -/
theorem nextPass_of_nil (h : remaining cfg w = []) : nextPass cfg w = none := by
  obtain ⟨h2, h5⟩ := List.append_eq_nil_iff.mp h
  rw [List.map_eq_nil_iff] at h2 h5
  rw [nextPass, scan2g_eq_head, h2]
  cases hc : cfg.support5g with
  | false => rfl
  | true =>
    rw [hc, if_pos rfl] at h5
    simp [scan5g_eq_head, h5]

/-- A pass takes the next channel of the round. -/
theorem nextPass_of_cons {c : ℕ} {rest : List ℕ} (h : remaining cfg w = c :: rest) :
    ∃ w', nextPass cfg w = some (c, w') ∧ remaining cfg w' = rest := by
  unfold remaining at h
  cases h2 : order2g.filter w.channelMask.getLsbD with
  | cons i is =>
    -- a channel of 2.4 GHz is left
    rw [h2, List.map_cons, List.cons_append, List.cons.injEq] at h
    refine ⟨_, by rw [nextPass, scan2g_eq_head, h2, ← h.1]; rfl, ?_⟩
    rw [remaining, Masks.filter_clear order2g_nodup h2]
    exact h.2
  | nil =>
    rw [h2, List.map_nil, List.nil_append] at h
    cases hc : cfg.support5g with
    | false => simp [hc] at h
    | true =>
      rw [hc, if_pos rfl] at h
      cases h5 : (List.range max5gChannelNum).filter w.channel5gMask.getLsbD with
      | nil => simp [h5] at h
      | cons k ks =>
        rw [h5, List.map_cons, List.cons.injEq] at h
        refine ⟨{ w with channel5gMask := w.channel5gMask &&& ~~~ BitVec.twoPow 32 k }, ?_, ?_⟩
        · rw [nextPass, scan2g_eq_head, h2, hc, if_pos rfl, scan5g_eq_head, h5, ← h.1]
          rfl
        · rw [remaining, h2, hc, if_pos rfl, Masks.filter_clear List.nodup_range h5]
          exact h.2

/-- With a channel in the masks, two passes are enough for every call. -/
theorem getNextChannel_eq (hmasks : remaining cfg (loadWork false masks) ≠ []) :
    ∃ c w' rest, getNextChannel cfg masks 2 w = some (c, w') ∧ remaining cfg w' = rest ∧
      (remaining cfg w = c :: rest ∨
        remaining cfg w = [] ∧ remaining cfg (loadWork false masks) = c :: rest) := by
  cases hw : remaining cfg w with
  | cons c rest =>
    obtain ⟨w', hpass, hrest⟩ := nextPass_of_cons hw
    exact ⟨c, w', rest, by rw [getNextChannel, hpass], hrest, .inl rfl⟩
  | nil =>
    obtain ⟨c, rest, hload⟩ := List.exists_cons_of_ne_nil hmasks
    obtain ⟨w', hpass, hrest⟩ := nextPass_of_cons hload
    refine ⟨c, w', rest, ?_, hrest, .inr ⟨rfl, hload⟩⟩
    rw [getNextChannel, nextPass_of_nil hw]
    change getNextChannel cfg masks 1 (loadWork false masks) = _
    rw [getNextChannel, hpass]

/-- The calls serve the channels of the masks in rounds. -/
theorem getNextChannels_eq_serve (hmasks : remaining cfg (loadWork false masks) ≠ []) (n : ℕ) :
    getNextChannels cfg masks 2 n w
      = some (serve (remaining cfg (loadWork false masks)) n (remaining cfg w)) := by
  induction n generalizing w with
  | zero => rfl
  | succ n ih =>
    obtain ⟨c, w', rest, hnext, hrest, hround⟩ := getNextChannel_eq (w := w) hmasks
    rw [getNextChannels, hnext, Option.bind_some, ih, Option.map_some, hrest]
    rcases hround with hw | ⟨hw, hload⟩
    · rw [hw, serve]
    · rw [hw, hload, serve]

/-- With no channel in the masks, no call ends once the working copies are empty: every pass fills
them with nothing. -/
theorem getNextChannel_eq_none (hmasks : remaining cfg (loadWork false masks) = [])
    (hw : remaining cfg w = []) (fuel : ℕ) : getNextChannel cfg masks fuel w = none := by
  induction fuel generalizing w with
  | zero => rfl
  | succ fuel ih =>
    rw [getNextChannel, nextPass_of_nil hw]
    exact ih hmasks

/-- With no channel in the masks, the calls end as long as something is left in the working copies,
and not beyond. -/
theorem getNextChannels_eq_none (hmasks : remaining cfg (loadWork false masks) = []) (fuel : ℕ)
    {n : ℕ} (hn : (remaining cfg w).length < n) : getNextChannels cfg masks fuel n w = none := by
  induction n generalizing w with
  | zero => exact absurd hn (Nat.not_lt_zero _)
  | succ n ih =>
    cases hw : remaining cfg w with
    | nil => rw [getNextChannels, getNextChannel_eq_none hmasks hw, Option.bind_none]
    | cons c rest =>
      cases fuel with
      | zero => rfl
      | succ fuel =>
        obtain ⟨w', hpass, hrest⟩ := nextPass_of_cons hw
        rw [hw, List.length_cons] at hn
        rw [getNextChannels, getNextChannel, hpass, Option.bind_some,
          ih (by rw [hrest]; omega), Option.map_none]

/-- The first time, the round starts with the default channel, be it in the masks or not. -/
theorem remaining_notReady :
    remaining cfg (loadWork true masks)
      = if masks.1.getLsbD staDefaultChannel then remaining cfg (loadWork false masks)
        else staDefaultChannel :: remaining cfg (loadWork false masks) := by
  have hbit : ∀ j, (masks.1 ||| BitVec.twoPow 16 staDefaultChannel).getLsbD j
      = (masks.1.getLsbD j || decide (j = staDefaultChannel)) := by
    intro j
    have hstep := Masks.getLsbD_setStep masks.1 true staDefaultChannel j
    rw [if_pos rfl] at hstep
    rw [hstep, Bool.true_and]
    by_cases hj : j = staDefaultChannel
    · simp [hj, staDefaultChannel]
    · simp [hj]
  have htail : order2g.tail.filter (masks.1 ||| BitVec.twoPow 16 staDefaultChannel).getLsbD
      = order2g.tail.filter masks.1.getLsbD := by
    refine List.filter_congr fun j hj => ?_
    have hne : j ≠ staDefaultChannel := by
      rintro rfl
      exact absurd hj (by decide)
    simp [hbit, hne]
  have hfirst : (masks.1 ||| BitVec.twoPow 16 staDefaultChannel).getLsbD staDefaultChannel
      = true := by simp [hbit]
  have horder : order2g = staDefaultChannel :: order2g.tail := rfl
  simp only [remaining, loadWork, if_true, Bool.false_eq_true, if_false]
  rw [horder, List.filter_cons_of_pos hfirst, htail, List.filter_cons]
  cases masks.1.getLsbD staDefaultChannel <;> rfl

end Pass

/-! ## Aligned masks -/

section Aligned

variable {regdom : List Regdomain} {cfg : RegCfg} {mode : HwMode} {s : RegState}
  {masks : BitVec 16 × BitVec 32}

/-- A round over masks that hold channels of 5 GHz only where these are supported is their
channels. -/
theorem remaining_perm (h5 : cfg.support5g = false → masks.2 = 0) :
    (remaining cfg (loadWork false masks)).Perm (channelsOf masks) := by
  have horder : order2g.Perm (List.range max2gChannelNum) := by decide
  have hnum2 : ∀ is : List ℕ, (∀ i ∈ is, i < max2gChannelNum) →
      is.map (currentChannel false) = is.map fun i => (entry chantable2ghz i).hwValue :=
    fun is his => List.map_congr_left fun i hi => by
      simp [currentChannel, chBitmaskToNum, his i hi]
  have hnum5 : ∀ ks : List ℕ, (∀ k ∈ ks, k < max5gChannelNum) →
      ks.map (currentChannel true) = ks.map fun k => (entry chantable5ghz k).hwValue :=
    fun ks hks => List.map_congr_left fun k hk => by
      simp [currentChannel, chBitmaskToNum, hks k hk]
  refine List.Perm.append ?_ ?_
  · rw [← hnum2 _ fun i hi => List.mem_range.mp (List.mem_of_mem_filter hi)]
    exact (horder.filter _).map _
  · cases hc : cfg.support5g with
    | false => simp [loadWork, h5 hc]
    | true =>
      rw [if_pos rfl, hnum5 _ fun k hk => List.mem_range.mp (List.mem_of_mem_filter hk)]
      rfl

theorem channelsOf_ne_nil_iff : channelsOf masks ≠ [] ↔ HasChannel masks := by
  simp only [channelsOf, HasChannel, ne_eq, List.append_eq_nil_iff, List.map_eq_nil_iff,
    List.filter_eq_nil_iff, List.mem_range]
  grind

/-- Hopping is fair exactly when there is a channel to go to. -/
theorem fair_iff (h5 : cfg.support5g = false → masks.2 = 0) :
    Fair cfg masks ↔ HasChannel masks := by
  rw [← channelsOf_ne_nil_iff]
  have hperm := remaining_perm h5
  constructor
  · -- without a channel the first call does not end
    intro hfair hnil
    obtain ⟨fuel, rs, hrun, -⟩ := hfair 1
    rw [hnil, List.perm_nil] at hperm
    rw [getNextChannels_eq_none hperm fuel (by rw [hperm]; exact Nat.one_pos)] at hrun
    cases hrun
  · intro hne n
    have hround : remaining cfg (loadWork false masks) ≠ [] := fun h =>
      hne (List.nil_perm.mp (h ▸ hperm))
    refine ⟨2, _, getNextChannels_eq_serve hround n, fun c hc => ?_, fun r hr => ?_⟩
    · exact hperm.mem_iff.mp ((RoundRobin.mem_serve hc).elim id id)
    · rw [← hperm.length_eq] at hr ⊢
      rw [RoundRobin.serve_block hround hr]
      exact hperm

/-- The alignment leaves no channel of 5 GHz where these are not supported. -/
theorem align_unsupported (mask2g : BitVec 16) (mask5g : BitVec 32) (hc : cfg.support5g = false) :
    (alignAvailableChannelMask regdom cfg mode s mask2g mask5g).2 = 0 := by
  simp [alignAvailableChannelMask, hc]

/-- The channel that the device has locked on is one of its masks. -/
theorem getLsbD_neighbours {w num chBit : ℕ} (h : chBit < w) :
    (lockMasks.neighbours w num chBit).getLsbD chBit = true := by
  simp [lockMasks.neighbours, h]

/-- After a lock on an available channel, hopping is fair: at least that channel is left. -/
theorem fair_lockMasks {ch chBit : ℕ} (hbit : chToBitmask ch = some chBit)
    (h2 : ¬ Is5gBand ch → chBit < max2gChannelNum ∧ s.available2g.getLsbD chBit = true)
    (h5 : Is5gBand ch → chBit < max5gChannelNum ∧ cfg.support5g = true ∧
      s.available5g.getLsbD chBit = true) :
    Fair cfg
      (alignAvailableChannelMask regdom cfg .sconfig s (lockMasks ch).1 (lockMasks ch).2) := by
  refine (fair_iff (align_unsupported _ _)).mpr ?_
  by_cases hband : Is5gBand ch
  · obtain ⟨hlt, hc, havail⟩ := h5 hband
    have hlock : (lockMasks ch).2.getLsbD chBit = true := by
      simp only [lockMasks, hbit, if_pos hband]
      exact getLsbD_neighbours (hlt.trans (by decide))
    refine .inr ⟨chBit, hlt, ?_⟩
    simp only [alignAvailableChannelMask, hc, if_true]
    split <;> simp [Masks.getLsbD_clearWhere, hlock, havail]
  · obtain ⟨hlt, havail⟩ := h2 hband
    have hlock : (lockMasks ch).1.getLsbD chBit = true := by
      simp only [lockMasks, hbit, if_neg hband]
      exact getLsbD_neighbours hlt
    exact .inl ⟨chBit, hlt, by simp [alignAvailableChannelMask, hlock, havail]⟩

/-- A domain with the channels 1 to 11. -/
def elevenDomain : List Regdomain := [⟨(85, 83), [⟨2402000, 2472000, 0⟩]⟩]

end Aligned

end Fullmac.Reg
