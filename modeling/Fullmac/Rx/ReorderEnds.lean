import Fullmac.Rx.ReorderConfig
import Fullmac.Rx.ReorderReads
import Fullmac.Lib.Loops

/-!
# The loops of the reorder buffer end

Reference: `host/core/txrx_hdl.c`, `ieee80211_release_reorder_frames` and
`ieee80211_sta_reorder_release`.

The loops are given pass by pass here, without a bound on their number, and with the scan that ends
`ieee80211_sta_reorder_release`. Its bound is `(index - 1) % buf_size`, computed in `int`: behind
slot 0 this is `-1` (unless `buf_size` is one), which `j` never is. The scan from slot 0 ends only
because some slot of the window holds a frame, and it is entered only if `stored_mpdu_num` says that
one does: an empty window with another count would be scanned for ever (`lastScan_endless`).

`sessStepWithin n` is an operation whose loops may make `n` passes each. After any history
`seqModulo` passes are enough, and what the operation leaves is what `sessStep` says.
-/

namespace Fullmac.Rx

open Loops RingWindow Slots

/-! ## Single passes -/

section Passes

variable (env : Env)

/-- The loop of `ieee80211_release_reorder_frames`. -/
def windowPass (headSeqNum : ℕ) (s : RxBaSession) : RxBaSession ⊕ RxBaSession :=
  if seqLess s.headSeqNum headSeqNum then
    .inl (releaseReorderFrame env s (s.slot s.headSeqNum)).1
  else .inr s

/-- The variables of the timeout loop. -/
structure TimeoutVars where
  sess : RxBaSession
  j : ℕ
  skipped : ℕ

/-- The timeout loop of `ieee80211_sta_reorder_release`. The result says whether it was left for
`set_release_timer`, behind the scan. -/
def timeoutPass (index : ℕ) (v : TimeoutVars) : TimeoutVars ⊕ (RxBaSession × Bool) :=
  if v.j = index then .inr (v.sess, false)
  else if (v.sess.reorderBuf v.j).isNone then
    .inl { v with j := (v.j + 1) % v.sess.bufSize, skipped := v.skipped + 1 }
  else if v.skipped ≠ 0 ∧
      timeAfter (env.tick v.j) (v.sess.reorderTime v.j + htRxReorderBufTimeout) = false then
    .inr (v.sess, true)
  else
    let r := releaseReorderFrame env v.sess v.j
    let s' := { r.1 with headSeqNum := (r.1.headSeqNum + v.skipped) % 4096 }
    .inl { sess := s', j := (v.j + 1) % s'.bufSize, skipped := 0 }

/-- The in-order loop of `ieee80211_sta_reorder_release`. -/
def inOrderPass (s : RxBaSession) : RxBaSession ⊕ RxBaSession :=
  let index := s.slot s.headSeqNum
  if (s.reorderBuf index).isSome then .inl (releaseReorderFrame env s index).1 else .inr s

/-- The scan at the end of `ieee80211_sta_reorder_release`; `index` and `j` are of type `int`, whose
remainder has the sign of the dividend. -/
def scanPass (s : RxBaSession) (index : ℤ) (j : ℤ) : ℤ ⊕ Unit :=
  if j ≠ (index - 1).tmod s.bufSize then
    if (s.reorderBuf j.toNat).isSome then .inr ()
    else .inl ((j + 1).tmod s.bufSize)
  else .inr ()

end Passes

/-! ## Operations whose loops may make so many passes -/

/-- The last `if` of `ieee80211_sta_reorder_release`. -/
def lastScanWithin (n : ℕ) (s : RxBaSession) : Option RxBaSession :=
  if s.storedMpduNum ≠ 0 then
    let index : ℤ := s.slot s.headSeqNum
    (passes (scanPass s index) n index).map fun _ => s
  else some s

/-- `ieee80211_sta_reorder_release`. -/
def staReorderReleaseWithin (n : ℕ) (env : Env) (s : RxBaSession) : Option RxBaSession :=
  let index := s.slot s.headSeqNum
  if (s.reorderBuf index).isNone ∧ s.storedMpduNum ≠ 0 then
    (passes (timeoutPass env index) n ⟨s, (index + 1) % s.bufSize, 1⟩).bind fun r =>
      if r.2 then some r.1 else lastScanWithin n r.1
  else (passes (inOrderPass env) n s).bind (lastScanWithin n)

/-- `ieee80211_release_reorder_frames`. -/
def releaseReorderFramesWithin (n : ℕ) (env : Env) (s : RxBaSession) (headSeqNum : ℕ) :
    Option RxBaSession :=
  passes (windowPass env headSeqNum) n s

/-- `ieee80211_sta_manage_reorder_buf`. -/
def staManageReorderBufWithin (n : ℕ) (env : Env) (s : RxBaSession) (frame : RxFrame) :
    Option RxBaSession :=
  if seqLess frame.seqNum s.headSeqNum then some s
  else
    let room :=
      if seqLess frame.seqNum ((s.headSeqNum + s.bufSize) % 65536) then some s
      else releaseReorderFramesWithin n env s (seqInc (seqSub frame.seqNum s.bufSize))
    room.bind fun s =>
      let index := s.slot frame.seqNum
      if (s.reorderBuf index).isSome then some s
      else if frame.seqNum = s.headSeqNum ∧ s.storedMpduNum = 0 then
        some { s with headSeqNum := seqInc s.headSeqNum }
      else staReorderReleaseWithin n env (storeFrame env s index frame)

/-- One operation on a session. A flush walks over the configured buffer once and for all. -/
def sessStepWithin (n : ℕ) (cfg : HostCfg) (s : RxBaSession) : SessOp → Option RxBaSession
  | .frame env f => if s.bufSize = 0 then some s else staManageReorderBufWithin n env s f
  | .bar env start => if s.bufSize = 0 then some s else releaseReorderFramesWithin n env s start
  | .timer env => if s.bufSize = 0 then some s else staReorderReleaseWithin n env s
  | .addba env ssn bufSize => some (addbaSession cfg env s ssn bufSize).1
  | .delete env => some (deleteSession cfg env s).1

/-! ## The loops one by one -/

section Ends

variable (env : Env)

/-- Each pass brings the head one number nearer to the target. -/
theorem passes_windowPass (target : ℕ) {s : RxBaSession} {n k : ℕ} (hn : s.passes target < n)
    (hk : s.passes target ≤ k) :
    passes (windowPass env target) n s = some (releaseReorderFramesLoop env target k s).1 := by
  refine passes_eq_of_measure (I := fun _ => True) (μ := fun s => s.passes target)
    (g := fun k s => (releaseReorderFramesLoop env target k s).1) (fun s r k _ hr _ => ?_)
    (fun s s' _ hs' => ?_) trivial hn hk
  · unfold windowPass at hr
    split at hr
    · cases hr
    · next hstop =>
      cases hr
      cases k with
      | zero => rfl
      | succ k => simp only [releaseReorderFramesLoop, hstop, Bool.false_eq_true, if_false]
  · unfold windowPass at hs'
    split at hs'
    · next hless =>
      cases hs'
      refine ⟨trivial, ?_, fun k => ?_⟩
      · rw [passes_release env hless (s.slot s.headSeqNum)]
        exact Nat.lt_succ_self _
      · simp only [releaseReorderFramesLoop, hless, if_true]
    · cases hs'

theorem releaseReorderFramesWithin_eq {n : ℕ} (hn : seqModulo ≤ n) (s : RxBaSession)
    (target : ℕ) :
    releaseReorderFramesWithin n env s target = some (releaseReorderFrames env s target).1 := by
  have hlt : s.passes target < seqModulo := by
    unfold RxBaSession.passes
    split
    · exact seqSub_lt _ _
    · decide
  exact passes_windowPass env target (by omega) hlt.le

/-- The timeout loop goes once round the ring. -/
theorem passes_timeoutPass {index : ℕ} {s : RxBaSession} (hindex : index < s.bufSize) {j : ℕ}
    (hj : j < s.bufSize) (skipped : ℕ) {n k : ℕ} (hn : stepsTo s.bufSize index j < n)
    (hk : stepsTo s.bufSize index j ≤ k) :
    passes (timeoutPass env index) n ⟨s, j, skipped⟩
      = some ((timeoutLoop env index k s j skipped).1,
          (timeoutUses env index k s j skipped).2) := by
  refine passes_eq_of_measure
    (I := fun v : TimeoutVars => index < v.sess.bufSize ∧ v.j < v.sess.bufSize)
    (μ := fun v => stepsTo v.sess.bufSize index v.j)
    (g := fun k v => ((timeoutLoop env index k v.sess v.j v.skipped).1,
      (timeoutUses env index k v.sess v.j v.skipped).2))
    (fun v r k hv hr hle => ?_) (fun v v' hv hv' => ?_) (s := ⟨s, j, skipped⟩) ⟨hindex, hj⟩ hn hk
  · unfold timeoutPass at hr
    split_ifs at hr with hend hempty hyoung
    · cases hr
      cases k <;> simp [timeoutLoop, timeoutUses, hend]
    · cases hr
      have hsucc := stepsTo_succ hv.1 hv.2 hend
      obtain ⟨k, rfl⟩ : ∃ k', k = k' + 1 := ⟨k - 1, by omega⟩
      simp only [timeoutLoop, timeoutUses, if_neg hend, if_neg hempty, if_pos hyoung]
  · have hsucc := stepsTo_succ hv.1 hv.2
    have hnext : (v.j + 1) % v.sess.bufSize < v.sess.bufSize := Nat.mod_lt _ (by omega)
    unfold timeoutPass at hv'
    split_ifs at hv' with hend hempty hyoung
    · cases hv'
      have := hsucc hend
      refine ⟨⟨hv.1, hnext⟩, by dsimp only; omega, fun k => ?_⟩
      simp only [timeoutLoop, timeoutUses, if_neg hend, if_pos hempty]
    · cases hv'
      have := hsucc hend
      simp only [releaseReorderFrame_bufSize]
      refine ⟨⟨hv.1, hnext⟩, by omega, fun k => ?_⟩
      simp only [timeoutLoop, timeoutUses, if_neg hend, if_neg hempty, if_neg hyoung,
        releaseReorderFrame_bufSize]

/-- Each pass of the in-order loop takes a frame out of the window. -/
theorem passes_inOrderPass {s : RxBaSession} (hb : s.bufSize ≠ 0) {n k : ℕ}
    (hn : (contents s.bufSize s.reorderBuf).length < n)
    (hk : (contents s.bufSize s.reorderBuf).length ≤ k) :
    passes (inOrderPass env) n s = some (inOrderLoop env k s).1 := by
  refine passes_eq_of_measure (I := fun s => s.bufSize ≠ 0)
    (μ := fun s => (contents s.bufSize s.reorderBuf).length)
    (g := fun k s => (inOrderLoop env k s).1) (fun s r k _ hr _ => ?_) (fun s s' hs hs' => ?_)
    hb hn hk
  · unfold inOrderPass at hr
    dsimp only at hr
    split at hr
    · cases hr
    · next hempty =>
      cases hr
      cases k with
      | zero => rfl
      | succ k => simp only [inOrderLoop, if_neg hempty]
  · unfold inOrderPass at hs'
    dsimp only at hs'
    split at hs'
    · next hfull =>
      cases hs'
      obtain ⟨f, hf⟩ := Option.isSome_iff_exists.mp hfull
      have hlen := (contents_take (slot_lt hs _) hf).length_eq
      refine ⟨?_, ?_, fun k => ?_⟩
      · rwa [releaseReorderFrame_bufSize]
      · rw [releaseReorderFrame_bufSize, releaseReorderFrame_reorderBuf, hlen, List.length_cons]
        exact Nat.lt_succ_self _
      · simp only [inOrderLoop, if_pos hfull]
    · cases hs'

end Ends

/-! ## The scan -/

/-- The next slot of the scan. -/
theorem tmod_succ (b m : ℕ) : ((m : ℤ) + 1).tmod b = ((m + 1) % b : ℕ) := by
  rw [← Nat.cast_succ, ← Int.ofNat_tmod]

/-- The scan ends at a slot that holds a frame, if nowhere else. -/
theorem passes_scanPass {s : RxBaSession} {i : ℕ} (hi : i < s.bufSize)
    (hfull : (s.reorderBuf i).isSome) (index : ℤ) {m : ℕ} (hm : m < s.bufSize) {n : ℕ}
    (hn : s.bufSize ≤ n) : passes (scanPass s index) n m = some () := by
  have hlt : stepsTo s.bufSize i (m : ℤ).toNat < n := (stepsTo_lt hi hm).trans_le hn
  have hnext : ∀ j j' : ℤ, (∃ m : ℕ, m < s.bufSize ∧ j = m) → scanPass s index j = .inl j' →
      (∃ m : ℕ, m < s.bufSize ∧ j' = m) ∧
        stepsTo s.bufSize i j'.toNat < stepsTo s.bufSize i j.toNat := by
    rintro j j' ⟨m, hm, rfl⟩ hj'
    unfold scanPass at hj'
    rw [Int.toNat_natCast] at hj'
    split at hj'
    · split at hj'
      · cases hj'
      · next hempty =>
        cases hj'
        have hne : m ≠ i := by
          rintro rfl
          exact hempty hfull
        have hsucc := stepsTo_succ hi hm hne
        rw [tmod_succ, Int.toNat_natCast, Int.toNat_natCast]
        exact ⟨⟨_, Nat.mod_lt _ (by omega), rfl⟩, by omega⟩
    · cases hj'
  obtain ⟨⟨⟩, hleft⟩ := passes_of_measure hnext ⟨m, hm, rfl⟩ hlt
  exact hleft

/-- A count that is right finds the frame it counts. -/
theorem lastScanWithin_eq {s : RxBaSession} (hb : s.bufSize ≠ 0) (h : Stocked s.bufSize s) {n : ℕ}
    (hn : s.bufSize ≤ n) : lastScanWithin n s = some s := by
  unfold lastScanWithin
  split
  · next hcount =>
    have hsome : ∃ i < s.bufSize, (s.reorderBuf i).isSome := by
      by_contra hnone
      have hnil : contents s.bufSize s.reorderBuf = [] := contents_eq_nil.mpr fun i hi =>
        Option.not_isSome_iff_eq_none.mp fun hfull => hnone ⟨i, hi, hfull⟩
      rw [h.counted, hnil] at hcount
      exact hcount rfl
    obtain ⟨i, hi, hfull⟩ := hsome
    dsimp only
    rw [passes_scanPass hi hfull _ (slot_lt hb _) hn, Option.map_some]
  · rfl

/-- An empty window that is said to hold a frame is scanned for ever, if the head is in slot 0 and
the window has another slot. -/
theorem lastScan_endless {s : RxBaSession} (hb : 2 ≤ s.bufSize)
    (hslot : s.slot s.headSeqNum = 0) (hempty : ∀ i < s.bufSize, s.reorderBuf i = none)
    (hcount : s.storedMpduNum ≠ 0) (n : ℕ) : lastScanWithin n s = none := by
  have hbound : ((0 : ℤ) - 1).tmod s.bufSize = -1 := by
    rw [zero_sub, Int.neg_tmod, Int.tmod_eq_of_lt (by omega) (by omega)]
  unfold lastScanWithin
  rw [if_pos hcount, hslot]
  dsimp only
  rw [passes_eq_none (I := fun j : ℤ => ∃ m : ℕ, m < s.bufSize ∧ j = m) (fun j hj => ?_)
    ⟨0, by omega, rfl⟩, Option.map_none]
  obtain ⟨m, hm, rfl⟩ := hj
  refine ⟨_, ?_, (m + 1) % s.bufSize, Nat.mod_lt _ (by omega), rfl⟩
  unfold scanPass
  rw [Nat.cast_zero, hbound, if_pos (by omega), Int.toNat_natCast, hempty m hm, tmod_succ]
  rfl

/-! ## Operations and runs -/

/-- `ieee80211_sta_reorder_release` ends. -/
theorem staReorderReleaseWithin_eq {n : ℕ} (hn : seqModulo ≤ n) (env : Env) {s : RxBaSession}
    (hb : s.bufSize ≠ 0) (hsize : s.bufSize ≤ 255) (h : Stocked s.bufSize s) :
    staReorderReleaseWithin n env s = some (staReorderRelease env s).1 := by
  have hsize' : s.bufSize < 65536 := by omega
  have hle : s.bufSize < n := by
    unfold seqModulo at hn
    omega
  -- what the first loop leaves is as sound as what it found
  have hscan : ∀ {r : RxBaSession × List RxEvent}, Conserves s.bufSize 0 s r →
      lastScanWithin n r.1 = some r.1 := fun hr =>
    lastScanWithin_eq (hr.bufSize ▸ hb) (hr.bufSize.symm ▸ hr.stocked) (hr.bufSize ▸ hle.le)
  unfold staReorderReleaseWithin staReorderRelease
  dsimp only
  split
  · have hnext : (s.slot s.headSeqNum + 1) % s.bufSize < s.bufSize := Nat.mod_lt _ (by omega)
    have hsteps := stepsTo_lt (slot_lt hb s.headSeqNum) hnext
    rw [passes_timeoutPass env (slot_lt hb _) hnext 1 (hsteps.trans hle) hsteps.le,
      Option.bind_some]
    dsimp only
    split
    · rfl
    · exact hscan (conserves_timeoutLoop hsize' env _ _ h _ _)
  · have hlen : (contents s.bufSize s.reorderBuf).length ≤ s.bufSize := by
      simpa [contents] using List.length_filterMap_le s.reorderBuf (List.range s.bufSize)
    rw [passes_inOrderPass env hb (by omega) (Nat.le_succ_of_le hlen), Option.bind_some]
    exact hscan (conserves_inOrderLoop hsize' env _ h)

/-- So does `ieee80211_sta_manage_reorder_buf`. -/
theorem staManageReorderBufWithin_eq {n : ℕ} (hn : seqModulo ≤ n) (env : Env) {s : RxBaSession}
    (hb : s.bufSize ≠ 0) (hsize : s.bufSize ≤ 255) (h : Stocked s.bufSize s) (frame : RxFrame) :
    staManageReorderBufWithin n env s frame = some (staManageReorderBuf env s frame).1 := by
  have hsize' : s.bufSize < 65536 := by omega
  have hroom : (if seqLess frame.seqNum ((s.headSeqNum + s.bufSize) % 65536) then some s
      else releaseReorderFramesWithin n env s (seqInc (seqSub frame.seqNum s.bufSize)))
      = some (makeRoom env s frame.seqNum).1 := by
    unfold makeRoom
    split
    · rfl
    · exact releaseReorderFramesWithin_eq env hn s _
  have hconserves := conserves_makeRoom hsize' env h frame.seqNum
  unfold staManageReorderBufWithin staManageReorderBuf
  split
  · rfl
  dsimp only
  rw [hroom, Option.bind_some]
  generalize makeRoom env s frame.seqNum = r at hconserves
  have hb' : r.1.bufSize ≠ 0 := hconserves.bufSize ▸ hb
  split
  · rfl
  · next hfree =>
    split
    · rfl
    · have hstore := conserves_storeFrame hsize' env hconserves.stocked
        (hconserves.bufSize ▸ slot_lt hb' frame.seqNum) (by simpa using hfree) frame
      refine staReorderReleaseWithin_eq hn env hb' (hconserves.bufSize ▸ hsize) ?_
      exact hconserves.bufSize.symm ▸ hstore.stocked

/-- Every operation on a session whose window fits the buffer ends. -/
theorem SessFits.sessStepWithin_eq {cfg : HostCfg} {s : RxBaSession}
    (h : SessFits cfg.ampduRxBufSize s) {n : ℕ} (hn : seqModulo ≤ n) (op : SessOp) :
    sessStepWithin n cfg s op = some (sessStep cfg s op).1 := by
  have hsize : s.bufSize ≤ 255 := by
    have := h.bufSize_le
    have := cfg.ampduRxBufSize_lt
    omega
  cases op with
  | frame env f =>
    simp only [sessStepWithin, sessStep, rxSession]
    split
    · rfl
    · next hb =>
      rw [staManageReorderBufWithin_eq hn env hb hsize h.stocked f]
      split <;> rfl
  | bar env start =>
    simp only [sessStepWithin, sessStep, rxBar]
    split
    · rfl
    · exact releaseReorderFramesWithin_eq env hn s start
  | timer env =>
    simp only [sessStepWithin, sessStep, timerRelease]
    split
    · rfl
    · next hb => exact staReorderReleaseWithin_eq hn env hb hsize h.stocked
  | addba env ssn bufSize => rfl
  | delete env => rfl

/-- Every history keeps the frames in the window. -/
theorem sessFits_sessRun (cfg : HostCfg) {hist : List SessOp} (hhist : ∀ op ∈ hist, op.Fits cfg) :
    SessFits cfg.ampduRxBufSize (sessRun cfg RxBaSession.zero hist).1 := by
  have hn : cfg.ampduRxBufSize < 65536 := cfg.ampduRxBufSize_lt.trans (by decide)
  refine Machine.run_induction_of_meets (C := fun _ op => op.Fits cfg)
    (P := fun s' _ _ => SessFits cfg.ampduRxBufSize s') (sessFits_zero _)
    (fun s _ _ op hop h => h.step hn ?_) hist (Machine.meets_of_forall hhist)
  cases op with
  | addba env ssn bufSize => exact ⟨h.bufSize_le, Nat.le_refl _, hop⟩
  | delete env => exact ⟨h.bufSize_le, Nat.le_refl _⟩
  | _ => trivial

/-- In every session state that arrivals, BARs, timer releases, ADDBAs and deletions lead to, every
further operation ends: none of its loops makes more than `seqModulo` passes. -/
theorem sessStepWithin_sessRun (cfg : HostCfg) {hist : List SessOp}
    (hhist : ∀ op ∈ hist, op.Fits cfg) (op : SessOp) :
    sessStepWithin seqModulo cfg (sessRun cfg RxBaSession.zero hist).1 op
      = some (sessStep cfg (sessRun cfg RxBaSession.zero hist).1 op).1 :=
  (sessFits_sessRun cfg hhist).sessStepWithin_eq (Nat.le_refl _) op

/-- Four slots, and frame 5 waits in slot 1 when frame 3 comes. -/
def waitingOps : List SessOp :=
  [.addba .ap 0 4, .frame .ap (.data 0 0), .frame .ap (.data 1 1), .frame .ap (.data 2 5),
    .frame .ap (.data 3 2)]

/-- Frame 3 leaves the head at number 4, and the scan starts in slot 0. -/
theorem sessStepWithin_waitingOps :
    sessStepWithin seqModulo .default (sessRun .default RxBaSession.zero waitingOps).1
        (.frame .ap (.data 4 3))
      = some (sessStep .default (sessRun .default RxBaSession.zero waitingOps).1
          (.frame .ap (.data 4 3))).1 :=
  sessStepWithin_sessRun .default (by simp [waitingOps, SessOp.Fits, HostCfg.default]) _

example :
    let s := (sessRun .default RxBaSession.zero (waitingOps ++ [.frame .ap (.data 4 3)])).1
    s.headSeqNum = 4 ∧ s.slot s.headSeqNum = 0 ∧ s.storedMpduNum = 1 := by
  decide +kernel

end Fullmac.Rx
