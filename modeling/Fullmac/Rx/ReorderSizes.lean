import Fullmac.Rx.ReorderOrder

/-!
# The buffer sizes for which a session delivers in order

A session that `ieee80211_addba_handler` has just set up is empty, whatever was done to it before.
From there it delivers in order, whatever arrives, exactly if its `buf_size` is at least two and
divides 4096. For the other sizes the run that breaks the order is written down: a frame is put into
the slot of the head although its number is another one (`early_delivery`), so that the head passes
its own number instead.
-/

namespace Fullmac.Rx

open RingWindow Slots

/-! ## Fresh and empty sessions -/

/-- An empty session whose head stands at `h`. -/
structure EmptyAt (ssn b h : ℕ) (s : RxBaSession) : Prop where
  empty : ∀ i, s.reorderBuf i = none
  ssn : s.ssn = ssn
  bufSize : s.bufSize = b
  head : s.headSeqNum % 4096 = h % 4096

theorem EmptyAt.windowInv {ssn b h : ℕ} {s : RxBaSession} (he : EmptyAt ssn b h s) :
    WindowInv s := by
  refine ⟨?_, ?_⟩ <;>
  · intro i f hf
    rw [he.empty i] at hf
    cases hf

/-- Every run of operations keeps a session sound. -/
theorem sound_sessRun {cfg : HostCfg} {s : RxBaSession} (h : Sound cfg s) (ops : List SessOp)
    (hops : ∀ op ∈ ops, op.Fits cfg) : Sound cfg (sessRun cfg s ops).1 :=
  Machine.run_induction_of_meets (C := fun _ op => op.Fits cfg) (P := fun s' _ _ => Sound cfg s') h
    (fun _ _ _ op hop h => (sessStep_conserves h op hop).1) ops (Machine.meets_of_forall hops)

/-- A session that was just set up is empty and its head stands at `ssn`. -/
theorem emptyAt_addbaSession {cfg : HostCfg} {s : RxBaSession} (h : Sound cfg s) (env : Env)
    (ssn b : ℕ) : EmptyAt ssn b ssn (addbaSession cfg env s ssn b).1 :=
  ⟨flushSession_reorderBuf cfg env h.stocked, rfl, rfl, rfl⟩

/-- On an empty session the window loop only moves the head. -/
theorem emptyAt_releaseReorderFramesLoop (env : Env) {ssn b h : ℕ} (target fuel : ℕ)
    {s : RxBaSession} (he : EmptyAt ssn b h s) :
    EmptyAt ssn b (releaseReorderFramesLoop env target fuel s).1.headSeqNum
      (releaseReorderFramesLoop env target fuel s).1 := by
  induction fuel generalizing s h with
  | zero => exact ⟨he.empty, he.ssn, he.bufSize, rfl⟩
  | succ fuel ih =>
    rw [releaseReorderFramesLoop]
    split
    · refine ih (h := seqInc s.headSeqNum) ⟨?_, ?_, ?_, ?_⟩
      · intro i
        rw [releaseReorderFrame_reorderBuf, Function.update_apply]
        split
        · rfl
        · exact he.empty i
      · rw [releaseReorderFrame_ssn, he.ssn]
      · rw [releaseReorderFrame_bufSize, he.bufSize]
      · rw [releaseReorderFrame_headSeqNum]
    · exact ⟨he.empty, he.ssn, he.bufSize, rfl⟩

/-- A BAR less than half the number space ahead moves the head of an empty session there. -/
theorem emptyAt_rxBar (env : Env) {ssn b h : ℕ} (target : ℕ) {s : RxBaSession}
    (he : EmptyAt ssn b h s) (hb : b ≠ 0) (hhalf : seqSub target h < 2048) :
    EmptyAt ssn b target (rxBar env s target).1 := by
  rw [rxBar, if_neg (by rw [he.bufSize]; exact hb)]
  have hmoved := emptyAt_releaseReorderFramesLoop env target seqModulo he
  have hsame : seqSub target s.headSeqNum = seqSub target h := seqSub_congr rfl he.head
  refine ⟨hmoved.empty, hmoved.ssn, hmoved.bufSize, ?_⟩
  refine releaseReorderFramesLoop_headSeqNum env target seqModulo s ?_ (by omega)
  simp only [seqModulo]
  omega

/-! ## A frame in the slot of another number -/

/-- A frame that the window has room for and whose slot is the slot of the head is delivered at
once, although its number is not the head. -/
theorem early_delivery (env : Env) {s : RxBaSession} {f : RxFrame}
    (hold : seqLess f.seqNum s.headSeqNum = false)
    (hroom : makeRoom env s f.seqNum = (s, [])) (hempty : ∀ i, s.reorderBuf i = none)
    (hb : s.bufSize ≠ 0) (hne : f.seqNum ≠ s.headSeqNum)
    (hslot : s.slot f.seqNum = s.slot s.headSeqNum) (hconn : env.disconnected f = false) :
    RxEvent.step (some (s.slot s.headSeqNum)) s.headSeqNum (seqInc s.headSeqNum) (.sent f)
      ∈ (rxSession env s f).2 := by
  have hfull : (storeFrame env s (s.slot s.headSeqNum) f).reorderBuf (s.slot s.headSeqNum)
      = some f := by
    simp [storeFrame]
  have hsame : (storeFrame env s (s.slot s.headSeqNum) f).slot
      (storeFrame env s (s.slot s.headSeqNum) f).headSeqNum = s.slot s.headSeqNum := rfl
  simp only [rxSession, if_neg hb, staManageReorderBuf, hold, hroom, hslot, hempty,
    Option.isSome_none, Bool.false_eq_true, if_false, hne, false_and, if_true, List.nil_append]
  -- the frame now lies in the slot of the head, so the in-order branch takes it out
  rw [staReorderRelease, if_neg (by rw [hsame, hfull]; simp), inOrderLoop, hsame, hfull]
  dsimp only
  rw [Option.isSome_some, if_pos rfl, releaseReorderFrame_headSeqNum,
    releaseReorderFrame_out_of_some env _ hfull, hconn]
  exact List.mem_cons_self

/-- If it is not a number the head has just passed, the order is broken. -/
theorem not_inOrder_of_early {r : RxBaSession × List RxEvent} {ssn n : ℕ} {i : Option ℕ}
    {f : RxFrame} (hmem : RxEvent.step i n (seqInc n) (.sent f) ∈ r.2)
    (hahead : seqLess f.seqNum (seqInc n) = false) : ¬ InOrder ssn r := by
  intro h
  have hpassed := (h.passed i n (seqInc n) f hmem).2
  rw [hahead] at hpassed
  cases hpassed

/-! ## A single slot -/

/-- One frame half the number space ahead of a session with a single slot. -/
def halfwayOps (ssn : ℕ) : List SessOp := [.frame .ap (.data 0 ((ssn + 2048) % 4096))]

/-- It is exactly so far ahead that the window neither counts it as old nor moves towards it. -/
theorem not_inOrder_halfwayOps (cfg : HostCfg) {ssn : ℕ} {s : RxBaSession}
    (he : EmptyAt ssn 1 ssn s) : ¬ InOrder ssn (sessRun cfg s (halfwayOps ssn)) := by
  have hhead := he.head
  have hmem := early_delivery .ap (s := s) (f := .data 0 ((ssn + 2048) % 4096)) ?_ ?_
    he.empty (by rw [he.bufSize]; decide) ?_ ?_ (Env.ap_disconnected _)
  · refine not_inOrder_of_early (by simpa [halfwayOps, sessStep] using hmem) ?_
    simp only [RxFrame.data, seqLess_eq_false, seqSub, seqInc]
    omega
  · simp only [RxFrame.data, seqLess_eq_false, seqSub]
    omega
  · have hroom : seqLess ((ssn + 2048) % 4096) ((s.headSeqNum + s.bufSize) % 65536) = false := by
      rw [he.bufSize]
      simp only [seqLess_eq_false, seqSub]
      omega
    have hstay : seqLess s.headSeqNum (seqInc (seqSub ((ssn + 2048) % 4096) s.bufSize))
        = false := by
      rw [he.bufSize]
      simp only [seqLess_eq_false, seqSub, seqInc]
      omega
    rw [makeRoom, RxFrame.data, hroom, if_neg (by decide),
      releaseReorderFrames_of_not_less _ hstay]
  · simp only [RxFrame.data]
    omega
  · simp [RxBaSession.slot, he.bufSize, Nat.mod_one]

/-! ## Sizes that do not divide the number space -/

/-- Three BARs lead the head to the last number before the wrap, then a frame arrives whose number
stands as far behind `ssn` as the slot of that last number says. -/
def wrapOps (ssn b : ℕ) : List SessOp :=
  [.bar .ap ((ssn + 2047) % 4096), .bar .ap ((ssn + 4094) % 4096), .bar .ap ((ssn + 4095) % 4096),
    .frame .ap (.data 0 ((ssn + 4095 % b) % 4096))]

theorem not_inOrder_wrapOps (cfg : HostCfg) {ssn b : ℕ} {s : RxBaSession}
    (he : EmptyAt ssn b ssn s) (hb : 0 < b) (hb' : b ≤ 255) (hdvd : ¬ b ∣ 4096) :
    ¬ InOrder ssn (sessRun cfg s (wrapOps ssn b)) := by
  have hlast := last_slot_lt hb (by decide : 0 < 4096) hdvd
  norm_num at hlast
  have hb0 : b ≠ 0 := by omega
  have h1 := emptyAt_rxBar .ap ((ssn + 2047) % 4096) he hb0
    (by simp only [seqSub]; omega)
  have h2 := emptyAt_rxBar .ap ((ssn + 4094) % 4096) h1 hb0
    (by simp only [seqSub]; omega)
  have h3 := emptyAt_rxBar .ap ((ssn + 4095) % 4096) h2 hb0
    (by simp only [seqSub]; omega)
  have hhead := h3.head
  have hssn := h3.ssn
  have hsize := h3.bufSize
  -- name the session the three BARs leave
  generalize hs3 : (rxBar .ap (rxBar .ap (rxBar .ap s ((ssn + 2047) % 4096)).1
    ((ssn + 4094) % 4096)).1 ((ssn + 4095) % 4096)).1 = s3 at h3 hhead hssn hsize
  have hmem := early_delivery .ap (s := s3) (f := .data 0 ((ssn + 4095 % b) % 4096)) ?_ ?_
    h3.empty (by omega) ?_ ?_ (Env.ap_disconnected _)
  · refine not_inOrder_of_early (i := some (s3.slot s3.headSeqNum)) (n := s3.headSeqNum)
      (f := .data 0 ((ssn + 4095 % b) % 4096)) ?_ ?_
    · simp only [wrapOps, Machine.run_cons, Machine.run_nil, sessStep, hs3, List.append_nil,
        List.mem_append]
      exact Or.inr (Or.inr (Or.inr hmem))
    · simp only [RxFrame.data, seqLess_eq_false, seqSub, seqInc]
      omega
  · simp only [RxFrame.data, seqLess_eq_false, seqSub]
    omega
  · have hroom : seqLess ((ssn + 4095 % b) % 4096) ((s3.headSeqNum + s3.bufSize) % 65536)
        = true := by
      rw [hsize]
      simp only [seqLess_eq_true, seqSub]
      omega
    simp only [makeRoom, RxFrame.data, hroom, if_true]
  · simp only [RxFrame.data]
    omega
  · -- both slots are `4095 % b`
    have hf : seqSub ((ssn + 4095 % b) % 4096) ssn = 4095 % b :=
      seqSub_eq_of_add (by omega) (by omega)
    have hh : seqSub s3.headSeqNum ssn = 4095 := seqSub_eq_of_add (by omega) (by omega)
    simp only [RxBaSession.slot, RxFrame.data, hssn, hsize, hf, hh, Nat.mod_mod]

/-! ## The exact condition -/

/-- **Order and uniqueness.** Take a session set up by an ADDBA, whatever happened to it before,
with `1 ≤ buf_size ≤ ampdu_rx_buf_size`. Whatever frames with 12-bit numbers, BARs and timer
releases follow, its stored frames stay in the window and in their slots and its deliveries come at
strictly increasing positions, each passed by the head when it is delivered, if and only if
`buf_size` is at least two and divides 4096. -/
theorem session_inOrder_iff (cfg : HostCfg) (hist : List SessOp)
    (hhist : ∀ op ∈ hist, op.Fits cfg) (env : Env) (ssn b : ℕ) (hb : 1 ≤ b)
    (hfit : b ≤ cfg.ampduRxBufSize) :
    (∀ ops : List SessOp, (∀ op ∈ ops, op.Live) → InOrder ssn
        (sessRun cfg (addbaSession cfg env (sessRun cfg RxBaSession.zero hist).1 ssn b).1 ops))
      ↔ 2 ≤ b ∧ b ∣ 4096 := by
  have hcfg := cfg.ampduRxBufSize_lt
  have he := emptyAt_addbaSession (sound_sessRun (sound_zero cfg) hist hhist) env ssn b
  generalize (addbaSession cfg env (sessRun cfg RxBaSession.zero hist).1 ssn b).1 = s at he ⊢
  constructor
  · intro hall
    by_contra hcond
    rcases Nat.lt_or_ge b 2 with hlt | hge
    · obtain rfl : b = 1 := by omega
      refine not_inOrder_halfwayOps cfg he (hall _ ?_)
      simp [halfwayOps, SessOp.Live, RxFrame.data, Nat.mod_lt]
    · have hdvd : ¬ b ∣ 4096 := fun hdvd => hcond ⟨hge, hdvd⟩
      refine not_inOrder_wrapOps cfg he (by omega) (by omega) hdvd (hall _ ?_)
      simp [wrapOps, SessOp.Live, RxFrame.data, Nat.mod_lt]
  · rintro ⟨hge, hdvd⟩ ops hops
    have reg : Regular s := ⟨by rw [he.bufSize]; exact hge, by rw [he.bufSize]; exact hdvd,
      by rw [he.bufSize]; omega⟩
    exact (keeps_sessRun he.windowInv reg ops hops).inOrder reg he.head

/-- With the default 64 slots two frames in the wrong order come out in the right one. -/
theorem session_inOrder_of_64 :
    InOrder 4095 (sessRun .default (addbaSession .default .ap .zero 4095 64).1
      [.frame .ap (.data 0 0), .frame .ap (.data 1 4095)]) :=
  (session_inOrder_iff .default [] (by simp) .ap 4095 64 (by decide) (by decide)).mpr
    ⟨by decide, by decide⟩ _ (by simp [SessOp.Live, RxFrame.data])

/-- With 48 slots the head at number 4095 delivers the frame with number 15. -/
theorem session_not_inOrder_of_48 :
    (∀ op ∈ wrapOps 0 48, op.Live) ∧
      ¬ InOrder 0 (sessRun .default (addbaSession .default .ap .zero 0 48).1 (wrapOps 0 48)) := by
  refine ⟨by simp [wrapOps, SessOp.Live, RxFrame.data], ?_⟩
  exact not_inOrder_wrapOps _ (emptyAt_addbaSession (sound_zero .default) .ap 0 48) (by decide)
    (by decide) (by decide)

end Fullmac.Rx
