import Fullmac.Ap.Tim

/-!
# Frames and the traffic indication

A frame from a station may bring a report of the firmware, which is recorded before the handlers see
the frame; they recompute the bit of the station on some of their ways only (`RxDesp.Recalcs`). A
frame for a sleeping station is queued and its bit recomputed, but when the pool is full a frame of
every station is dropped first, and the bits of the others stay as they are (`TxShows`).
-/

namespace Fullmac.Ap

variable {cfg : ApCfg} {s s' : ApInfo cfg} {i : StaIdx cfg}

/-! ## Received frames -/

/-- The handlers of a received frame recompute the bit of the station. -/
def RxDesp.Recalcs (rx : RxDesp cfg) (st : Station cfg) : Prop :=
  st.assoc = true ∧
    if st.psSta then
      rx.psPoll = true ∨ (rx.data || rx.nullData) = true ∧
        (rx.pm = false ∨ st.uapsdQueues.testBit rx.ac = true ∧ st.sp = false)
    else rx.pm = true ∧ 0 < st.fwQLen

theorem staPsDeliverUapsd_within (s : ApInfo cfg) (i : StaIdx cfg) :
    Within i s (staPsDeliverUapsd s i) := by
  unfold staPsDeliverUapsd
  dsimp only
  split
  · exact .refl i s
  · exact staPsDeliverResponse_within s i _ _ _

theorem staPsDeliverUapsd_shown (h : (s.sta i).uapsdQueues = 0 → Shown s i) :
    Shown (staPsDeliverUapsd s i) i := by
  unfold staPsDeliverUapsd
  dsimp only
  split
  · next hnone => exact h hnone
  · exact staPsDeliverResponse_shown s i _ _ _

theorem rxHUapsdAndPspoll_within (s : ApInfo cfg) (rx : RxDesp cfg) :
    Within rx.sta s (rxHUapsdAndPspoll s rx).2 := by
  unfold rxHUapsdAndPspoll
  dsimp only
  split_ifs
  · exact .refl _ s
  · exact staPsDeliverResponse_within s rx.sta _ _ _
  · exact .refl _ s
  · exact .refl _ s
  · exact staPsDeliverUapsd_within s rx.sta
  · exact .refl _ s

theorem rxHUapsdAndPspoll_shown {rx : RxDesp cfg} (h : Shown s rx.sta) :
    Shown (rxHUapsdAndPspoll s rx).2 rx.sta := by
  unfold rxHUapsdAndPspoll
  dsimp only
  split_ifs
  · exact h
  · exact staPsDeliverResponse_shown s rx.sta _ _ _
  · exact h
  · exact h
  · exact staPsDeliverUapsd_shown fun _ => h
  · exact h

theorem apStaPsEnd_within (s : ApInfo cfg) (i : StaIdx cfg) : Within i s (apStaPsEnd s i) := by
  have hnum : Within i s { s with numStaPs := dec8 s.numStaPs } := .of_eq rfl rfl
  unfold apStaPsEnd
  split
  · exact hnum.trans (staPsDeliverWakeup_within _ i)
  · exact .refl i s

theorem apStaPsEnd_shown (h : s.numStaPs = 0 → Shown s i) : Shown (apStaPsEnd s i) i := by
  unfold apStaPsEnd
  split
  · exact staPsDeliverWakeup_shown _ i
  · next hzero => exact h (not_not.mp hzero)

theorem apStaPsStart_within (s : ApInfo cfg) (i : StaIdx cfg) : Within i s (apStaPsStart s i) := by
  have hnum : Within i s { s with numStaPs := inc8 s.numStaPs } := .of_eq rfl rfl
  exact hnum.trans (.modSta rfl rfl)

theorem apStaPsStart_shown (h : Shown s i) : Shown (apStaPsStart s i) i := by
  have hnum : Shown { s with numStaPs := inc8 s.numStaPs } i := h
  exact hnum.modSta rfl

theorem rxHStaProcess_within (s : ApInfo cfg) (rx : RxDesp cfg) :
    Within rx.sta s (rxHStaProcess s rx) := by
  unfold rxHStaProcess
  dsimp only
  split_ifs
  · exact apStaPsEnd_within s rx.sta
  · exact .refl _ s
  · exact (apStaPsStart_within s rx.sta).trans (.recalcTim _ rx.sta)
  · exact apStaPsStart_within s rx.sta
  · exact .refl _ s

theorem rxHStaProcess_shown {rx : RxDesp cfg} (h : Shown s rx.sta) :
    Shown (rxHStaProcess s rx) rx.sta := by
  unfold rxHStaProcess
  dsimp only
  split_ifs
  · exact apStaPsEnd_shown fun _ => h
  · exact h
  · exact recalcTimGenBeacon_shown _ rx.sta
  · exact apStaPsStart_shown h
  · exact h

theorem dataNeedToBeReceived_within (s : ApInfo cfg) (rx : RxDesp cfg) :
    Within rx.sta s (dataNeedToBeReceived s rx) := by
  have hpoll := rxHUapsdAndPspoll_within s rx
  unfold dataNeedToBeReceived
  split
  · split
    · next s' he =>
      rw [he] at hpoll
      exact hpoll.trans (rxHStaProcess_within s' rx)
    · next s' he =>
      rw [he] at hpoll
      exact hpoll
  · exact .refl _ s

theorem dataNeedToBeReceived_shown {rx : RxDesp cfg} (h : Shown s rx.sta) :
    Shown (dataNeedToBeReceived s rx) rx.sta := by
  have hpoll := rxHUapsdAndPspoll_shown h
  unfold dataNeedToBeReceived
  split
  · split
    · next s' he =>
      rw [he] at hpoll
      exact rxHStaProcess_shown hpoll
    · next s' he =>
      rw [he] at hpoll
      exact hpoll
  · exact h

/-- The bit is right after a frame whose handlers recompute it, whatever it was before. -/
theorem RxDesp.Recalcs.shown {rx : RxDesp cfg} (h : rx.Recalcs (s.sta rx.sta))
    (hpos : (s.sta rx.sta).psSta = true → s.numStaPs ≠ 0) :
    Shown (dataNeedToBeReceived s rx) rx.sta := by
  obtain ⟨hassoc, hrest⟩ := h
  unfold dataNeedToBeReceived
  rw [if_pos hassoc]
  cases hps : (s.sta rx.sta).psSta with
  | false =>
    rw [hps, if_neg Bool.false_ne_true] at hrest
    have hpoll : rxHUapsdAndPspoll s rx = (true, s) := by simp [rxHUapsdAndPspoll, hps]
    rw [hpoll]
    dsimp only
    unfold rxHStaProcess
    dsimp only
    rw [if_neg (by simp [hps]), if_pos hrest.1, if_pos hrest.2]
    exact recalcTimGenBeacon_shown _ rx.sta
  | true =>
    rw [hps, if_pos rfl] at hrest
    cases hpoll : rx.psPoll with
    | true =>
      have he : rxHUapsdAndPspoll s rx = (false, staPsDeliverPollResponse s rx.sta) := by
        simp [rxHUapsdAndPspoll, hps, hpoll]
      rw [he]
      exact staPsDeliverResponse_shown s rx.sta _ _ _
    | false =>
      obtain ⟨hkind, hcase⟩ := hrest.resolve_left (by simp [hpoll])
      cases hpm : rx.pm with
      | false =>
        have he : rxHUapsdAndPspoll s rx = (true, s) := by
          simp [rxHUapsdAndPspoll, hps, hpoll, hpm]
        rw [he]
        dsimp only
        unfold rxHStaProcess
        dsimp only
        rw [if_pos hps, if_pos (by simp [hpm, hkind])]
        exact apStaPsEnd_shown fun hzero => absurd hzero (hpos hps)
      | true =>
        obtain ⟨htrigger, hsp⟩ := hcase.resolve_left (by simp [hpm])
        unfold RxDesp.ac at htrigger
        have hbits : ((rx.qos || rx.data) || (rx.qos || rx.nullData)) = true := by
          cases hqos : rx.qos <;> simp_all
        have he : rxHUapsdAndPspoll s rx = (true, staPsDeliverUapsd s rx.sta) := by
          unfold rxHUapsdAndPspoll
          dsimp only
          rw [if_neg (by simp [hps]), if_neg (by simp [hpoll]), if_pos (by rw [hpm, hbits]; rfl),
            if_neg (by rw [htrigger]; exact Bool.false_ne_true), if_neg (by simp [hsp])]
        rw [he]
        refine rxHStaProcess_shown (staPsDeliverUapsd_shown fun hnone => ?_)
        rw [hnone, Nat.zero_testBit] at htrigger
        exact absurd htrigger Bool.false_ne_true

/-- How many frames the firmware holds for a station, after a frame. -/
def RxKind.report (fwQLen : ℤ) : RxKind → ℤ
  | .data _ => fwQLen
  | .nullDataEvt qLen => if 0 < qLen then qLen else unknownFwQLen
  | .psPollEvt qLen => qLen

/-- What the handlers see of a frame. -/
def RxKind.desp (i : StaIdx cfg) (qos pm : Bool) (up : ℕ) : RxKind → RxDesp cfg
  | .data null => { sta := i, psPoll := false, nullData := null, data := !null, pm, qos, up }
  | .nullDataEvt _ => { sta := i, psPoll := false, nullData := true, data := false, pm, qos, up }
  | .psPollEvt _ =>
    { sta := i, psPoll := true, nullData := false, data := false, pm := false, qos, up := 0 }

/-- A report of the firmware makes no difference, or the handlers recompute the bit. -/
def RxShows (s : ApInfo cfg) (sa : EtherAddr) (kind : RxKind) (pm : Bool) (up : ℕ) : Prop :=
  ∀ i, findStaByAddr s sa = some i → (s.sta i).aid ≠ 0 →
    indicateTim { s.sta i with fwQLen := kind.report (s.sta i).fwQLen } = indicateTim (s.sta i) ∨
      (kind.desp i (s.sta i).wmm pm up).Recalcs
        { s.sta i with fwQLen := kind.report (s.sta i).fwQLen }

/-- A frame of a known station is recorded before the handlers see it. -/
def recordRx (s : ApInfo cfg) (i : StaIdx cfg) (sa : EtherAddr) (kind : RxKind) : ApInfo cfg :=
  let s := s.modSta i fun st => { st with arpRetryCount := 0, fwQLen := kind.report st.fwQLen }
  if (s.sta i).assoc then s else sendMgmtFrame s sa

/-- The reply to a station that is not associated changes nothing that matters here. -/
theorem recordRx_eq (s : ApInfo cfg) (i : StaIdx cfg) (sa : EtherAddr) (kind : RxKind) :
    (recordRx s i sa kind).sta = (s.modSta i fun st =>
        { st with arpRetryCount := 0, fwQLen := kind.report st.fwQLen }).sta ∧
      (recordRx s i sa kind).tim = s.tim ∧ (recordRx s i sa kind).numStaPs = s.numStaPs := by
  unfold recordRx
  extract_lets s₁
  split
  · exact ⟨rfl, rfl, rfl⟩
  · have hnum := congrArg ApInfo.numStaPs (sendMgmtFrame_ctl s₁ sa)
    exact ⟨sendMgmtFrame_sta s₁ sa, sendMgmtFrame_tim s₁ sa, hnum⟩

theorem rxFrame_of_find {sa : EtherAddr} (hi : findStaByAddr s sa = some i) (kind : RxKind)
    (pm : Bool) (up : ℕ) : rxFrame s sa kind pm up
      = dataNeedToBeReceived (recordRx s i sa kind) (kind.desp i (s.sta i).wmm pm up) := by
  have hwmm : ((recordRx s i sa kind).sta i).wmm = (s.sta i).wmm := by
    rw [(recordRx_eq s i sa kind).1, modSta_sta_self]
  rw [← hwmm]
  unfold rxFrame recordRx
  rw [hi]
  cases kind <;> rfl

theorem TimInv.rxFrame (h : TimInv s) {sa : EtherAddr} {kind : RxKind} {pm : Bool} {up : ℕ}
    (hr : RxShows s sa kind pm up) : TimInv (rxFrame s sa kind pm up) := by
  refine ⟨tableInv_kept.rxFrame h.table sa kind pm up, psInv_kept.rxFrame h.ps sa kind pm up, ?_⟩
  cases hi : findStaByAddr s sa with
  | none =>
    have hnone : Ap.rxFrame s sa kind pm up = Ap.sendMgmtFrame s sa := by
      unfold Ap.rxFrame
      rw [hi]
    rw [hnone]
    exact (h.sendMgmtFrame sa).tim
  | some i =>
    obtain ⟨hrecord, htim, hnum⟩ := recordRx_eq s i sa kind
    have hself : (recordRx s i sa kind).sta i
        = { s.sta i with arpRetryCount := 0, fwQLen := kind.report (s.sta i).fwQLen } := by
      rw [hrecord, modSta_sta_self]
    have hmod : Within i s (s.modSta i fun st =>
      { st with arpRetryCount := 0, fwQLen := kind.report st.fwQLen }) := .modSta rfl rfl
    have hwithin : Within i s (recordRx s i sa kind) := hmod.trans (.of_eq hrecord htim)
    have hsta : (kind.desp i (s.sta i).wmm pm up).sta = i := by cases kind <;> rfl
    have hrx := dataNeedToBeReceived_within (recordRx s i sa kind)
      (kind.desp i (s.sta i).wmm pm up)
    rw [hsta] at hrx
    rw [rxFrame_of_find hi]
    refine h.tim.within h.table (hwithin.trans hrx) fun hv ha => ?_
    have hshown : Shown s i := h.tim.shown i hv ha
    generalize hdesp : kind.desp i (s.sta i).wmm pm up = rx at hsta ⊢
    subst hsta
    rcases hr rx.sta hi ha with hsame | hrecalc
    · refine dataNeedToBeReceived_shown ?_
      rw [Shown, hself, htim]
      exact hshown.trans hsame.symm
    · rw [hdesp] at hrecalc
      refine RxDesp.Recalcs.shown ?_ fun hps => ?_
      · rw [hself]
        exact hrecalc
      · rw [hself] at hps
        rw [hnum]
        exact h.ps.numStaPs_ne_zero hps

/-! ## Frames to send -/

/-- What is left of the queues of a station when a frame of the first category that has any is
dropped. -/
def purgedBuf : List Ac → (Ac → List (DespIdx cfg)) → Ac → List (DespIdx cfg)
  | [], q => q
  | ac :: acs, q =>
    match q ac with
    | [] => purgedBuf acs q
    | _ :: rest => Function.update q ac rest

/-- A station after `purge_old_ps_buffers`. -/
def Station.purged (st : Station cfg) : Station cfg :=
  { st with psTxBuf := purgedBuf acsUp st.psTxBuf }

theorem purgeOldOne_sta_self (s : ApInfo cfg) (i : StaIdx cfg) (acs : List Ac) :
    (purgeOldOne i acs s).sta i
      = { s.sta i with psTxBuf := purgedBuf acs (s.sta i).psTxBuf } := by
  induction acs with
  | nil => rfl
  | cons ac acs ih =>
    unfold purgeOldOne purgedBuf
    rcases listQDeq_cases s i ac with ⟨hq, hd⟩ | ⟨d, q, hq, hd⟩ <;> rw [hd, hq]
    · exact ih
    · have hsta : (dropDesp (setQueue s i ac q) d).sta i = (setQueue s i ac q).sta i := rfl
      dsimp only
      rw [hsta, setQueue, modSta_sta_self]

/-- The loop over the stations drops a frame of each. -/
theorem purgeOldPsBuffers_sta (s : ApInfo cfg) (j : StaIdx cfg) :
    (purgeOldPsBuffers s).sta j = if (s.sta j).valid then (s.sta j).purged else s.sta j := by
  have hloop : ∀ (l : List (StaIdx cfg)), l.Nodup → ∀ s : ApInfo cfg,
      (l.foldl (fun s i => if (s.sta i).valid then purgeOldOne i [3, 2, 1, 0] s else s) s).sta j
        = if j ∈ l ∧ (s.sta j).valid = true then (s.sta j).purged else s.sta j := by
    intro l
    induction l with
    | nil => intro _ s; simp
    | cons i l ih =>
      intro hl s
      obtain ⟨hi, hl⟩ := List.nodup_cons.mp hl
      rw [List.foldl_cons, ih hl]
      by_cases hj : j = i
      · subst hj
        rw [if_neg fun hc => hi hc.1]
        by_cases hv : (s.sta j).valid = true
        · rw [if_pos hv, if_pos ⟨List.mem_cons_self, hv⟩]
          exact purgeOldOne_sta_self s j _
        · rw [if_neg hv, if_neg fun hc => hv hc.2]
      · have hsame : (if (s.sta i).valid then purgeOldOne i [3, 2, 1, 0] s else s).sta j
            = s.sta j := by
          split
          · exact (others_keptByQueues s i).purgeOldOne (fun _ _ => rfl) rfl _ j hj
          · rfl
        rw [hsame]
        simp only [List.mem_cons, hj, false_or]
  unfold purgeOldPsBuffers
  rw [hloop _ (List.nodup_finRange _)]
  simp only [List.mem_finRange, true_and]

/-- The state in which a frame is queued, after room has been made in the pool. -/
def roomInPool (s : ApInfo cfg) : ApInfo cfg :=
  if cfg.poolSize ≤ s.totalPsBuffered then purgeOldPsBuffers s else s

/-- From there on only the station at hand and its bit change. -/
theorem queueFrame_within (now : ℕ) (s : ApInfo cfg) (i : StaIdx cfg) (ac : Ac) (d : DespIdx cfg)
    (t : TxDesp cfg) : Within i (roomInPool s) (queueFrame now s i ac d t) := by
  have hkept := within_keptByQueues (roomInPool s) i
  have hroom : Within i (roomInPool s) (makeRoom s i ac) := by
    unfold makeRoom
    extract_lets s₁
    split
    · change Within i s₁ _
      have hkept := within_keptByQueues s₁ i
      rcases listQDeq_cases s₁ i ac with ⟨_, hd⟩ | ⟨d, q, _, hd⟩ <;> rw [hd]
      · exact .refl i _
      · exact hkept.setTxDesp (hkept.setQueue (.refl i _) rfl ac q) _
    · exact hkept.setTotal (.refl i _) _
  unfold queueFrame
  extract_lets s₁ s₂ s₃ r
  have h₂ : Within i (roomInPool s) s₂ := hkept.setTxDesp hroom _
  have h₃ : Within i (roomInPool s) s₃ := (hkept.setQueue h₂ rfl ac _).trans (.modSta rfl rfl)
  have hr : Within i (roomInPool s) r.2 := h₃.trans (.recalcTim s₃ i)
  split_ifs
  · exact h₃
  · exact hr.trans (staPsDeliverResponse_within r.2 i _ _ _)
  · exact hr

theorem queueFrame_shown (htim : cfg.timAllOne = false) (now : ℕ) (s : ApInfo cfg) (i : StaIdx cfg)
    (ac : Ac) (d : DespIdx cfg) (t : TxDesp cfg) : Shown (queueFrame now s i ac d t) i := by
  unfold queueFrame
  extract_lets s₁ s₂ s₃ r
  rw [if_neg (by simp [htim])]
  split
  · exact staPsDeliverResponse_shown r.2 i _ _ _
  · exact recalcTimGenBeacon_shown s₃ i

/-- A frame is put into a queue: it is for a sleeping station, and neither a reply to a poll nor a
frame of the access point. -/
def Queued (s : ApInfo cfg) (f : TxFrame) (bAPFrame pollFlag : Bool) (i : StaIdx cfg) : Prop :=
  let t := dataPrepareTxData s f bAPFrame pollFlag
  t.sta = some i ∧ t.unicast = true ∧ t.pollResponse = false ∧ t.nativeAp = false ∧
    dataCheckAuthed s t = .continue ∧
    ((s.sta i).psSta = true ∨ (s.sta i).psTxBuf (upToAc t.priority) ≠ [])

/-- The handlers put a frame into a queue, or leave everything but the descriptors alone. -/
theorem callTxHandlers_cases (now : ℕ) (s : ApInfo cfg) (f : TxFrame) (bAPFrame pollFlag : Bool) :
    (∃ u b, (callTxHandlers (txHUnicastPsBuf now) s f bAPFrame pollFlag).2
      = { s with txDesp := u, assertFailed := b }) ∨
    ∃ i d u, Queued s f bAPFrame pollFlag i ∧
      (callTxHandlers (txHUnicastPsBuf now) s f bAPFrame pollFlag).2
        = queueFrame now { s with txDesp := u } i (upToAc f.priority) d
          (dataPrepareTxData s f bAPFrame pollFlag) := by
  unfold callTxHandlers
  cases apGetTxDesp s with
  | none => exact .inl ⟨_, _, rfl⟩
  | some d =>
    dsimp only
    set t := dataPrepareTxData s f bAPFrame pollFlag
    set s₁ : ApInfo cfg := { s with txDesp := Function.update s.txDesp d (some t) }
    have hcheck : dataCheckAuthed s₁ t = dataCheckAuthed s t := rfl
    rw [hcheck]
    cases hauthed : dataCheckAuthed s t with
    | drop => exact .inl ⟨_, _, rfl⟩
    | queued => exact .inl ⟨_, _, rfl⟩
    | «continue» =>
      dsimp only
      unfold dataNeedQueue
      by_cases hresponse : (t.pollResponse || t.nativeAp) = true
      · rw [if_pos hresponse]
        exact .inl ⟨_, _, rfl⟩
      rw [if_neg hresponse]
      by_cases hunicast : t.unicast = true
      · rw [if_pos hunicast]
        unfold txHUnicastPsBuf
        cases hsta : t.sta with
        | none => exact .inl ⟨_, _, rfl⟩
        | some i =>
          dsimp only
          rw [Bool.not_eq_true, Bool.or_eq_false_iff] at hresponse
          by_cases hqueue : (((s₁.sta i).psSta || !((s₁.sta i).psTxBuf (upToAc t.priority)).isEmpty)
              && !t.nativeAp) = true
          · rw [if_pos hqueue]
            have hpsSta : (s.sta i).psSta = true ∨ (s.sta i).psTxBuf (upToAc t.priority) ≠ [] := by
              rw [Bool.and_eq_true, Bool.or_eq_true] at hqueue
              exact hqueue.1.imp_right fun hne => by simpa using hne
            exact .inr ⟨i, d, _, ⟨hsta, hunicast, hresponse.1, hresponse.2, hauthed, hpsSta⟩, rfl⟩
          · rw [if_neg hqueue]
            exact .inl ⟨_, _, rfl⟩
      · rw [if_neg hunicast]
        exact .inl ⟨_, _, rfl⟩

/-- When the pool is full, the frames that the other stations lose make no difference. -/
def TxShows (s : ApInfo cfg) (f : TxFrame) (bAPFrame pollFlag : Bool) : Prop :=
  ∀ i, Queued s f bAPFrame pollFlag i → cfg.poolSize ≤ s.totalPsBuffered →
    ∀ j, j ≠ i → (s.sta j).valid = true → (s.sta j).aid ≠ 0 →
      indicateTim (s.sta j).purged = indicateTim (s.sta j)

theorem roomInPool_tim (s : ApInfo cfg) : (roomInPool s).tim = s.tim := by
  unfold roomInPool
  split
  · exact (tim_keptByQueues s).purgeOldPsBuffers (fun _ => trivial) rfl
  · rfl

theorem roomInPool_sta (s : ApInfo cfg) (j : StaIdx cfg) :
    (roomInPool s).sta j
      = if cfg.poolSize ≤ s.totalPsBuffered ∧ (s.sta j).valid = true then (s.sta j).purged
        else s.sta j := by
  unfold roomInPool
  split
  · next hfull =>
    rw [purgeOldPsBuffers_sta]
    simp only [hfull, true_and]
  · next hroom => rw [if_neg fun hc => hroom hc.1]

theorem roomInPool_signal (s : ApInfo cfg) (j : StaIdx cfg) :
    ((roomInPool s).sta j).valid = (s.sta j).valid ∧
      ((roomInPool s).sta j).aid = (s.sta j).aid := by
  rw [roomInPool_sta]
  split
  · exact ⟨rfl, rfl⟩
  · exact ⟨rfl, rfl⟩

/-- The bit of the station whose frame is queued is recomputed, the bits of the others stay right if
the purge makes no difference. -/
theorem TimTruthful.queueFrame (h : TimTruthful s) (ht : TableInv s.table)
    (htim : cfg.timAllOne = false) (hv : (s.sta i).valid = true)
    (hpurge : cfg.poolSize ≤ s.totalPsBuffered → ∀ j, j ≠ i → (s.sta j).valid = true →
      (s.sta j).aid ≠ 0 → indicateTim (s.sta j).purged = indicateTim (s.sta j))
    (now : ℕ) (ac : Ac) (d : DespIdx cfg) (t : TxDesp cfg) :
    TimTruthful (queueFrame now s i ac d t) := by
  have hw := queueFrame_within now s i ac d t
  have hshown := queueFrame_shown htim now s i ac d t
  have haidi : ((roomInPool s).sta i).aid = (s.sta i).aid := (roomInPool_signal s i).2
  have hplace : ∀ j, ((Ap.queueFrame now s i ac d t).sta j).valid = (s.sta j).valid ∧
      ((Ap.queueFrame now s i ac d t).sta j).aid = (s.sta j).aid := by
    intro j
    obtain ⟨hvalid, haid⟩ := roomInPool_signal s j
    by_cases hj : j = i
    · subst hj
      exact ⟨hw.valid.trans hvalid, hw.aid.trans haid⟩
    · rw [hw.others j hj]
      exact ⟨hvalid, haid⟩
  have hbit : ∀ a, a ≠ (s.sta i).aid → (Ap.queueFrame now s i ac d t).tim a = s.tim a := by
    intro a ha
    rw [hw.tim a (haidi ▸ ha), roomInPool_tim]
  refine ⟨fun j hvj haj => ?_, fun a ha hnobody => ?_⟩
  · by_cases hj : j = i
    · subst hj
      exact hshown
    · rw [(hplace j).1] at hvj
      rw [(hplace j).2] at haj
      have hne : (s.sta j).aid ≠ (s.sta i).aid := fun he => hj (ht.aid_inj j i he haj)
      have hwait : indicateTim ((roomInPool s).sta j) = indicateTim (s.sta j) := by
        rw [roomInPool_sta]
        split
        · next hc => exact hpurge hc.1 j hj hvj haj
        · rfl
      rw [Shown, (hplace j).2, hbit _ hne, hw.others j hj, hwait]
      exact h.shown j hvj haj
  · have hunheld : ∀ j, (s.sta j).valid = true → (s.sta j).aid ≠ a := by
      intro j hvj
      rw [← (hplace j).1] at hvj
      rw [← (hplace j).2]
      exact hnobody j hvj
    rw [hbit a fun he => hunheld i hv he.symm]
    exact h.unheld a ha hunheld

theorem TimInv.dataCouldBeSend (h : TimInv s) (htim : cfg.timAllOne = false) (now : ℕ)
    {f : TxFrame} {bAPFrame pollFlag : Bool} (hf : TxShows s f bAPFrame pollFlag) :
    TimInv (dataCouldBeSend (txHUnicastPsBuf now) s f bAPFrame pollFlag).2 := by
  refine ⟨tableInv_kept.dataCouldBeSend h.table now f bAPFrame pollFlag,
    psInv_kept.dataCouldBeSend h.ps now f bAPFrame pollFlag, ?_⟩
  have hcall : TimTruthful (callTxHandlers (txHUnicastPsBuf now) s f bAPFrame pollFlag).2 := by
    rcases callTxHandlers_cases now s f bAPFrame pollFlag with ⟨u, b, he⟩ | ⟨i, d, u, hi, he⟩ <;>
      rw [he]
    · exact h.tim.congr (fun _ => rfl) rfl
    · have hs : TimTruthful ({ s with txDesp := u } : ApInfo cfg) := h.tim.congr (fun _ => rfl) rfl
      exact hs.queueFrame h.table htim (findStaByAddr_valid hi.1) (hf i hi) now _ d _
  exact hcall.congr (fun _ => rfl) rfl

end Fullmac.Ap
