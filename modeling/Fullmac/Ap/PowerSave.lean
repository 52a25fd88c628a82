import Fullmac.Ap.Counters
import Fullmac.Ap.Ledger

/-!
# Frames for sleeping stations

Between two events nothing is in hand: the accounts of `Ledger` are exact, only sleeping stations
have frames, and `num_sta_ps` counts them (`PsInv`). A station wakes up by `ap_sta_ps_end` or is
removed from the driver; both empty its queues, before the flag is cleared or after, and both go
through `PsCore.wake`. That is also what makes `APStaInfo_free` safe, which forgets the queues of a
station without looking at them.
-/

namespace Fullmac.Ap

open Table

variable {cfg : ApCfg} {s : ApInfo cfg}

/-! ## Between events -/

/-- Sleeping stations may have frames. -/
def Asleep (s : ApInfo cfg) (i : StaIdx cfg) (_ : Ac) : Prop := (s.sta i).psSta = true

/-- Nothing is in hand, the counter of frames is exact, and so is the one of sleeping stations. -/
structure PsCore (s : ApInfo cfg) : Prop where
  ledger : Ledger (Asleep s) 0 0 s.ps
  numStaPs : s.table.numStaPs = count (·.psSta) s.table.sta

/-- What holds of the buffers between two events. -/
structure PsInv (s : ApInfo cfg) : Prop extends PsCore s where
  valid : ∀ i, (s.sta i).psSta = true → (s.sta i).valid = true

/-- An operation on the queues alone. -/
theorem PsInv.of_table {s' : ApInfo cfg} (h : PsInv s) (ht : s'.table = s.table)
    (hl : Ledger (Asleep s) 0 0 s'.ps) : PsInv s' := by
  have hsta : ∀ i, (s'.sta i).entry = (s.sta i).entry := congrFun (congrArg StaTable.sta ht)
  have hps : ∀ i, (s'.sta i).psSta = (s.sta i).psSta := fun i => congrArg StaEntry.psSta (hsta i)
  refine ⟨⟨hl.mono fun i _ _ hi => (hps i).trans hi, by rw [ht]; exact h.numStaPs⟩, fun i hi => ?_⟩
  rw [hps] at hi
  exact (congrArg StaEntry.valid (hsta i)).trans (h.valid i hi)

/-- An operation that leaves the queues alone. -/
theorem PsCore.of_ps {s' : ApInfo cfg} (h : PsCore s) (hp : s'.ps = s.ps) : PsCore s' := by
  have hps : ∀ i, (s'.sta i).psSta = (s.sta i).psSta := fun i =>
    congrArg PsEntry.psSta (congrFun (congrArg PsView.sta hp) i)
  refine ⟨?_, ?_⟩
  · rw [hp]
    exact h.ledger.mono fun i _ _ hi => (hps i).trans hi
  · exact (congrArg PsView.numStaPs hp).trans (h.numStaPs.trans (count_congr fun i => (hps i).symm))

theorem PsInv.of_ps {s' : ApInfo cfg} (h : PsInv s) (hp : s'.ps = s.ps) : PsInv s' := by
  have hsta : ∀ i, (s'.sta i).psEntry = (s.sta i).psEntry := congrFun (congrArg PsView.sta hp)
  refine ⟨h.toPsCore.of_ps hp, fun i hi => ?_⟩
  have hps : (s'.sta i).psSta = (s.sta i).psSta := congrArg PsEntry.psSta (hsta i)
  rw [hps] at hi
  exact (congrArg PsEntry.valid (hsta i)).trans (h.valid i hi)

theorem psInv_initAp : PsInv (initAp cfg) := by
  have hqueued : (initAp cfg).ps.queued = 0 := total_eq_zero fun _ => total_eq_zero fun _ => rfl
  have hin : (initAp cfg).ps.inUse = 0 := total_eq_zero fun _ => rfl
  refine ⟨⟨⟨?_, ?_, Nat.zero_le _, ?_, fun i ac hne => absurd rfl hne, rfl⟩, ?_⟩,
    fun i hi => absurd hi Bool.false_ne_true⟩
  · rw [hqueued, hin, add_zero]
  · rw [hqueued]
    rfl
  · rw [hin, Multiset.card_zero]
    exact Nat.zero_le _
  · exact (count_eq_zero fun _ => rfl).symm

/-- Who sleeps after a change of one station. -/
theorem setPs_psSta {s' : ApInfo cfg} {i : StaIdx cfg} {b : Bool} {n : ℕ}
    (ht : s'.table = s.table.setPs i b n) (j : StaIdx cfg) :
    (s'.sta j).psSta = if j = i then b else (s.sta j).psSta := by
  change (s'.table.sta j).psSta = _
  rw [ht]
  by_cases hj : j = i
  · subst hj; simp [StaTable.setPs]
  · simp only [StaTable.setPs, Function.update_of_ne hj, hj, if_false]
    rfl

theorem setPs_valid {s' : ApInfo cfg} {i : StaIdx cfg} {b : Bool} {n : ℕ}
    (ht : s'.table = s.table.setPs i b n) (j : StaIdx cfg) :
    (s'.sta j).valid = (s.sta j).valid := by
  change (s'.table.sta j).valid = _
  rw [ht]
  exact apply_update_of_eq (t := s.table.sta) (a := { s.table.sta i with psSta := b })
    StaEntry.valid rfl j

/-- A sleeping station without frames wakes up, one way or the other. -/
theorem PsCore.wake {s' : ApInfo cfg} (h : PsCore s) {i : StaIdx cfg} (hi : (s.sta i).psSta = true)
    (ht : s'.table = s.table.setPs i false (dec8 s.numStaPs))
    (hl : Ledger (fun j ac => Asleep s j ac ∧ j ≠ i) 0 0 s'.ps) : PsCore s' := by
  refine ⟨hl.mono fun j ac _ hj => ?_, ?_⟩
  · change (s'.sta j).psSta = true
    rw [setPs_psSta ht, if_neg hj.2]
    exact hj.1
  · rw [ht]
    exact (dec8_eq_count h.numStaPs hi rfl).1

/-- `APStaInfo_DrvRemove`. -/
theorem PsCore.drvRemove (h : PsCore s) (i : StaIdx cfg) :
    PsCore (drvRemove s i) ∧ ((drvRemove s i).sta i).psSta = false := by
  have ht := drvRemove_table s i
  cases hi : (s.sta i).psSta with
  | false =>
    have hsame : Ap.drvRemove s i = drvDetach s i := by simp [Ap.drvRemove, drvRemovePs, hi]
    rw [hi, if_neg Bool.false_ne_true] at ht
    have hps : ((Ap.drvRemove s i).sta i).psSta = (s.sta i).psSta :=
      congrArg StaEntry.psSta (congrFun (congrArg StaTable.sta ht) i)
    refine ⟨h.of_ps ?_, hps.trans hi⟩
    rw [hsame, drvDetach_ps]
  | true =>
    rw [hi, if_pos rfl] at ht
    refine ⟨h.wake hi ht ?_, by rw [setPs_psSta ht, if_pos rfl]⟩
    rw [Ap.drvRemove, drvDetach_ps]
    unfold drvRemovePs
    rw [hi, if_pos rfl]
    extract_lets s₁ s₂
    have h₁ : Ledger (Asleep s) 0 0 s₁.ps := h.ledger.modSta rfl
    have h₂ : Ledger (fun j ac => Asleep s j ac ∧ j ≠ i) 0 0 s₂.ps :=
      (h₁.setNumStaPs _).purgeStaPsBuffers i
    rw [recalcTimGenBeacon_ps]
    exact h₂.modSta rfl

/-- Removal from the driver puts nobody to sleep. -/
theorem drvRemove_sta (s : ApInfo cfg) (i j : StaIdx cfg) :
    ((drvRemove s i).sta j).valid = (s.sta j).valid ∧
      (((drvRemove s i).sta j).psSta = true → (s.sta j).psSta = true) := by
  have ht := drvRemove_table s i
  split at ht
  · refine ⟨setPs_valid ht j, fun hj => ?_⟩
    rw [setPs_psSta ht] at hj
    split at hj
    · exact absurd hj Bool.false_ne_true
    · exact hj
  · have hsta := congrFun (congrArg StaTable.sta ht) j
    have hps : ((drvRemove s i).sta j).psSta = (s.sta j).psSta := congrArg StaEntry.psSta hsta
    exact ⟨congrArg StaEntry.valid hsta, fun hj => hps.symm.trans hj⟩

theorem PsInv.drvRemove (h : PsInv s) (i : StaIdx cfg) : PsInv (drvRemove s i) := by
  refine ⟨(h.toPsCore.drvRemove i).1, fun j hj => ?_⟩
  obtain ⟨hv, hps⟩ := drvRemove_sta s i j
  exact hv.trans (h.valid j (hps hj))

/-- A station changes in what neither its queues nor its sleep depend on. -/
theorem PsCore.modSta (h : PsCore s) {i : StaIdx cfg} {f : Station cfg → Station cfg}
    (hb : (f (s.sta i)).psTxBuf = (s.sta i).psTxBuf) (hp : (f (s.sta i)).psSta = (s.sta i).psSta) :
    PsCore (s.modSta i f) := by
  have hps : ∀ j, ((s.modSta i f).sta j).psSta = (s.sta j).psSta := apply_update_of_eq _ hp
  refine ⟨(h.ledger.modSta hb).mono fun j _ _ hj => (hps j).trans hj, ?_⟩
  exact h.numStaPs.trans (count_congr fun j => (hps j).symm)

/-- `ap_sta_ps_start`. -/
theorem PsInv.apStaPsStart (h : PsInv s) {i : StaIdx cfg} (hi : (s.sta i).psSta = false)
    (hv : (s.sta i).valid = true) : PsInv (apStaPsStart s i) := by
  have ht := apStaPsStart_table s i
  have hl : Ledger (Asleep s) 0 0 (Ap.apStaPsStart s i).ps :=
    (h.ledger.setNumStaPs (inc8 s.numStaPs)).modSta rfl
  refine ⟨⟨hl.mono fun j _ _ hj => ?_, ?_⟩, fun j hj => ?_⟩
  · change ((Ap.apStaPsStart s i).sta j).psSta = true
    rw [setPs_psSta ht]
    split
    · rfl
    · exact hj
  · rw [ht]
    exact inc8_eq_count h.numStaPs hi rfl
  · rw [setPs_psSta ht] at hj
    rw [setPs_valid ht]
    split at hj
    · next hji => rwa [hji]
    · exact h.valid j hj

theorem PsInv.numStaPs_ne_zero (h : PsInv s) {i : StaIdx cfg} (hi : (s.sta i).psSta = true) :
    s.numStaPs ≠ 0 := by
  have hcount := count_pos (p := StaEntry.psSta) (t := s.table.sta) (i := i) hi
  rw [← h.numStaPs] at hcount
  exact Nat.pos_iff_ne_zero.mp hcount

/-- `ap_sta_ps_end`, for a sleeping station. -/
theorem PsInv.apStaPsEnd (h : PsInv s) {i : StaIdx cfg} (hi : (s.sta i).psSta = true) :
    PsInv (apStaPsEnd s i) := by
  have ht := apStaPsEnd_table s i
  have hpos := h.numStaPs_ne_zero hi
  rw [if_pos hpos] at ht
  have hl : Ledger (fun j ac => Asleep s j ac ∧ j ≠ i) 0 0 (Ap.apStaPsEnd s i).ps := by
    unfold Ap.apStaPsEnd
    rw [if_pos hpos]
    exact (h.ledger.setNumStaPs _).staPsDeliverWakeup i
  refine ⟨h.toPsCore.wake hi ht hl, fun j hj => ?_⟩
  rw [setPs_psSta ht] at hj
  rw [setPs_valid ht]
  split at hj
  · exact absurd hj Bool.false_ne_true
  · exact h.valid j hj

/-! ## Stations come and go -/

/-- `APStaInfo_free`. -/
theorem PsInv.apStaInfoFree (h : PsInv s) (i : StaIdx cfg) : PsInv (apStaInfoFree s i) := by
  unfold Ap.apStaInfoFree
  split
  · exact h
  · extract_lets s₁ s₂ s₃ s₄
    have hs₁ : s₁.ps = (s.modSta i fun st => { st with valid := false }).ps :=
      endSessions_ps _ i
    have hother : ∀ j, j ≠ i → (s₁.sta j).psEntry = (s.sta j).psEntry := by
      intro j hj
      have hsta : (s.modSta i fun st => { st with valid := false }).sta j = s.sta j :=
        Function.update_of_ne hj _ _
      rw [← hsta]
      exact congrFun (congrArg PsView.sta hs₁) j
    have h₁ : PsCore s₁ := (h.toPsCore.modSta rfl rfl).of_ps hs₁
    have hauth : (apStaSetAuthorized s₁ i false).ps = s₁.ps := apStaSetAuthorized_ps s₁ i false
    obtain ⟨h₂, hawake⟩ := (h₁.of_ps hauth).drvRemove i
    have hps : s₄.ps = s₂.ps := by
      have hclear : ∀ (l : List Counted) (s : ApInfo cfg),
          (l.foldl (fun s c => clearCounted s i c) s).ps = s.ps := by
        intro l
        induction l with
        | nil => intro s; rfl
        | cons c l ih => intro s; rw [List.foldl_cons, ih, clearCounted_ps]
      rw [hclear, decNumSta_ps, releaseAid_ps]
    have hentry : ∀ j, (s₄.sta j).psEntry = (s₂.sta j).psEntry :=
      congrFun (congrArg PsView.sta hps)
    have h₄ : PsCore s₄ := h₂.of_ps hps
    have hend : PsCore (endStaTimer s₄ i) := h₄.of_ps rfl
    have hawake₄ : (s₄.sta i).psSta = false := (congrArg PsEntry.psSta (hentry i)).trans hawake
    -- a station that is awake has no frames, so there are none to forget
    have hempty : (s₄.sta i).psTxBuf = fun _ => [] := by
      funext ac
      by_contra hne
      exact absurd ((h₄.ledger.allowed i ac hne).symm.trans hawake₄) (by simp)
    refine ⟨hend.modSta hempty.symm hawake₄.symm, fun j hj => ?_⟩
    by_cases hji : j = i
    · subst hji
      rw [modSta_sta_self] at hj
      exact absurd hj Bool.false_ne_true
    · have hlast : (((endStaTimer s₄ i).modSta i fun _ => resetStation).sta j) = s₄.sta j :=
        Function.update_of_ne hji _ _
      rw [hlast] at hj ⊢
      obtain ⟨hv₂, hp₂⟩ := drvRemove_sta (apStaSetAuthorized s₁ i false) i j
      have hentry₁ : ((apStaSetAuthorized s₁ i false).sta j).psEntry = (s.sta j).psEntry := by
        rw [← hother j hji]
        exact congrFun (congrArg PsView.sta hauth) j
      have hasleep := hp₂ ((congrArg PsEntry.psSta (hentry j)).symm.trans hj)
      have hvalid := h.valid j ((congrArg PsEntry.psSta hentry₁).symm.trans hasleep)
      calc (s₄.sta j).valid = (s₂.sta j).valid := congrArg PsEntry.valid (hentry j)
        _ = ((apStaSetAuthorized s₁ i false).sta j).valid := hv₂
        _ = (s.sta j).valid := congrArg PsEntry.valid hentry₁
        _ = true := hvalid

theorem psInv_keptByRemoval : KeptByRemoval fun s : ApInfo cfg => PsInv s where
  modSta h _ hc := h.of_ps (ps_modSta_of_eq (psEntry_of_core hc))
  setTimeout h _ _ := h.of_ps (ps_modSta_of_eq rfl)
  setDrv h _ := h.of_ps rfl
  clearAssoc h _ := h.of_ps (ps_modSta_of_eq rfl)
  clearAuth h _ := h.of_ps (ps_modSta_of_eq rfl)
  sendMgmtFrame h da := h.of_ps (h.ledger.sendMgmtFrame_ps da)
  withdraw h _ := h.of_ps (apStaSetAuthorized_ps _ _ _)
  drvRemove h i := h.drvRemove i
  apStaInfoFree h i := h.apStaInfoFree i

/-- A new station has no frames. -/
theorem PsInv.takeSlot (h : PsInv s) (i : StaIdx cfg) (addr : EtherAddr) :
    PsInv (takeSlot s i addr) := by
  unfold Ap.takeSlot
  extract_lets w s₁
  have h₁ : PsInv { s₁ with
      numSta := inc8 s₁.numSta
      drv := { s₁.drv with given := Function.update s₁.drv.given i w } } := h.of_ps rfl
  refine ⟨h₁.toPsCore.modSta rfl rfl, fun j hj => ?_⟩
  by_cases hji : j = i
  · subst hji
    rw [modSta_sta_self]
  · rw [modSta_sta_of_ne _ _ hji] at hj ⊢
    exact h.valid j hj

theorem PsInv.apStaInfoAdd (h : PsInv s) (addr : EtherAddr) : PsInv (apStaInfoAdd s addr).2 := by
  have hevict := psInv_keptByRemoval.evictSilent h
  rcases apStaInfoAdd_cases s addr with ⟨i, -, he⟩ | ⟨-, -, he⟩ | ⟨i, -, -, he⟩
  · rw [he]
    exact h
  · rw [he]
    exact hevict
  · rw [he]
    exact hevict.takeSlot i addr

theorem recordAssoc_ps (s : ApInfo cfg) (i : StaIdx cfg) (r : AssocReq) :
    (recordAssoc s i r).ps = s.ps :=
  recordAssoc_rule (P := fun s' => s'.ps = s.ps) (Q := fun s' => s'.ps = s.ps)
    (fun hs hc _ => (ps_modSta_of_eq (psEntry_of_core hc)).trans hs)
    (fun {s'} hs c => (setCounted_ps s' i c).trans hs)
    (fun hs => (ps_modSta_of_eq rfl).trans hs)
    (fun {s'} hs => (apStaSetAuthorized_ps s' i true).trans hs)
    (fun hs => (ps_modSta_of_eq rfl).trans hs) rfl r

theorem tryAssoc_ps (s : ApInfo cfg) (i : StaIdx cfg) (r : AssocReq) :
    (tryAssoc s i r).2.ps = s.ps := by
  have hchecked : (s.modSta i fun _ => (checkAssocIes (s.sta i) r.elems).2).ps = s.ps :=
    ps_modSta_of_eq (psEntry_of_core (checkAssocIes_core _ _))
  rcases tryAssoc_cases s i r with ⟨-, he | he⟩ | ⟨s', hget, he⟩ <;> rw [he]
  · exact hchecked
  · rw [apSocCmdStaOper_ps, recordAssoc_ps, hostapdGetAid_ps hget, hchecked]

/-! ## Runs -/

/-- Every operation keeps the accounts. -/
theorem psInv_kept : Kept (fun _ => True) fun s : ApInfo cfg => PsInv s where
  toKeptByRemoval := psInv_keptByRemoval
  grant h _ _ := h.of_ps (apStaSetAuthorized_ps _ _ _)
  apStaInfoAdd h addr := h.apStaInfoAdd addr
  authenticate h _ r := h.of_ps (ps_modSta_of_eq (authenticate_psEntry _ r))
  tryAssoc h _ _ r := h.of_ps (tryAssoc_ps _ _ r)
  apStaPsStart h hp hv := h.apStaPsStart hp hv
  apStaPsEnd h hp := h.apStaPsEnd hp
  recalcTimGenBeacon h i := h.of_ps (recalcTimGenBeacon_ps _ i)
  staPsDeliverPollResponse h i :=
    h.of_table (table_of_ctl (staPsDeliverPollResponse_ctl _ i))
      (h.ledger.staPsDeliverPollResponse i)
  staPsDeliverUapsd h i :=
    h.of_table (table_of_ctl (staPsDeliverUapsd_ctl _ i)) (h.ledger.staPsDeliverUapsd i)
  dataCouldBeSend h now f bAPFrame pollFlag :=
    h.of_table (table_of_ctl (dataCouldBeSend_ctl now _ f bAPFrame pollFlag))
      (h.ledger.dataCouldBeSend h.valid now f bAPFrame pollFlag)
  staInfoCleanup h now :=
    h.of_table (table_of_ctl (staInfoCleanup_ctl now _)) (h.ledger.staInfoCleanup now)

/-- The accounts of a state, as a reader wants them. -/
structure PsAccounted (s : ApInfo cfg) : Prop where
  /-- `total_ps_buffered` is the sum of the lengths of the queues. -/
  total_eq : s.totalPsBuffered = ∑ i, ∑ ac, ((s.sta i).psTxBuf ac).length
  total_le : s.totalPsBuffered ≤ cfg.poolSize
  /-- The descriptors in the queues, as often as they are there, are those in use, each once. -/
  queued_eq : ∑ i, ∑ ac, ((s.sta i).psTxBuf ac : Multiset (DespIdx cfg))
    = (Finset.univ.filter fun d => (s.txDesp d).isSome = true).val
  /-- `ap_get_tx_desp` finds a descriptor, and has always found one. -/
  free : (apGetTxDesp s).isSome = true
  noAssert : s.assertFailed = false
  asleep : ∀ i ac, (s.sta i).psTxBuf ac ≠ [] → (s.sta i).psSta = true
  numStaPs : s.numStaPs = count (·.psSta) s.sta

theorem inUse_eq_val (v : PsView cfg) :
    v.inUse = (Finset.univ.filter fun d => v.txDesp d = true).val := by
  rw [PsView.inUse, total, ← Finset.sum_filter, Finset.sum_multiset_singleton]

theorem PsInv.psAccounted (h : PsInv s) : PsAccounted s := by
  refine ⟨?_, h.ledger.bounded, ?_, ?_, h.ledger.ok, h.ledger.allowed, h.numStaPs⟩
  · have hcounted := h.ledger.counted
    rw [PsView.queued, total, Multiset.card_sum, add_zero] at hcounted
    refine hcounted.trans (Finset.sum_congr rfl fun i _ => ?_)
    rw [PsEntry.buffered, total, Multiset.card_sum]
    rfl
  · have howned := h.ledger.owned
    rw [inUse_eq_val, add_zero] at howned
    exact howned
  · obtain ⟨d, hget, -⟩ := h.ledger.exists_free
    rw [hget]
    rfl

/-- In every state the access point reaches, whatever frames, requests and timers come in whatever
order, `total_ps_buffered` is what is in the queues and no more than may be, the descriptors in use
are the queued ones, only sleeping stations have frames, and they are counted. -/
theorem apRun_psAccounted (cfg : ApCfg) (es : List (ApEvent cfg)) :
    PsAccounted (Machine.run apStep (initAp cfg) es).1 :=
  PsInv.psAccounted (psInv_kept.run psInv_initAp es)

/-- An open network with two slots that buffers one frame. -/
def openAp : ApCfg where
  maxAid := 2
  maxAid_pos := Nat.two_pos
  maxAid_le := Nat.le_of_ble_eq_true rfl
  poolSize := 1
  poolSize_pos := Nat.one_pos
  poolSize_lt := Nat.le_of_ble_eq_true rfl
  ownAddr := Vector.replicate 6 2
  authOpen := true
  authShared := false
  ssid := []
  wpa := false
  keyMgmtPsk := false
  disable11n := false
  erp := true
  modeG := true
  timAllOne := true
  bcnInterval := 100
  maxInactivity := 30000
  maxVifNum := 2
  ampduRxEnable := true
  host := ⟨8, Nat.le_of_ble_eq_true rfl⟩

/-- A station joins, falls asleep and is sent a frame. -/
def sleeperEvents (sa : EtherAddr) : List (ApEvent openAp) :=
  [.auth
    { longEnough := true, sa, authAlg := 0, transaction := 1, isWep := false, challenge := none
      tkipCountermeasures := false, newChallenge := none },
   .assoc
    { longEnough := true, sa, reassoc := false, capabInfo := 0, listenInterval := 10
      tkipCountermeasures := false
      elems := some { ssid := some [], wmm := none, suppRates := some [2], extSuppRates := none
                      htCapab := none, rsn := none } },
   .rx sa (.data true) true 0,
   .tx 0 { da := sa, isData := true, priority := noQosPriority, psFrame := false } false false]

-- two sleeping stations share one buffer: the second frame takes the place of the first
example :
    let s := (Machine.run apStep (initAp openAp)
      (sleeperEvents (Vector.replicate 6 4) ++ sleeperEvents (Vector.replicate 6 6))).1
    s.numSta = 2 ∧ s.numStaPs = 2 ∧ s.totalPsBuffered = 1 ∧
      (List.finRange 2).map (fun i => ((s.sta i).psTxBuf 2).length) = [0, 1] := by
  decide +kernel

end Fullmac.Ap
