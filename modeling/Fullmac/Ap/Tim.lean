import Fullmac.Ap.Sessions

/-!
# The traffic indication map

A bit of the TIM tells a station that frames are waiting for it, in its queues or in the firmware.
The access point does not derive the map from the queues: each operation that changes them is
expected to recompute the bit of the station it works on. `TimTruthful` says that the map is what
one would derive.

An operation works on one station, so the map stays truthful if the bit of that station is right
afterwards (`TimTruthful.change`), and a recomputation makes it right whatever came before
(`recalcTimGenBeacon_shown`). What is left are the operations that do not recompute it: those that
let an awake station leave, that record how many frames the firmware holds, that drop frames of all
stations, and that change which queues count. `ShowsTruth` says when they do no harm.
-/

namespace Fullmac.Ap

variable {cfg : ApCfg} {s s' s'' : ApInfo cfg} {i : StaIdx cfg}

/-! ## A truthful map -/

/-- The bit of a station says whether frames are waiting for it. -/
def Shown (s : ApInfo cfg) (i : StaIdx cfg) : Prop :=
  s.tim (s.sta i).aid = indicateTim (s.sta i)

/-- The bits of the stations that are there are right, and the bits that nobody has are clear. -/
structure TimTruthful (s : ApInfo cfg) : Prop where
  shown : ∀ i, (s.sta i).valid = true → (s.sta i).aid ≠ 0 → Shown s i
  unheld : ∀ a, a ≠ 0 → (∀ i, (s.sta i).valid = true → (s.sta i).aid ≠ a) → s.tim a = false

/-- A station and its bit change. If the station still has its AID, the bit is right; if not, it is
clear. -/
theorem TimTruthful.change (h : TimTruthful s) (ht : TableInv s.table)
    (hothers : ∀ j, j ≠ i → s'.sta j = s.sta j)
    (htim : ∀ a, a ≠ (s.sta i).aid → s'.tim a = s.tim a)
    (hself : (s'.sta i).valid = true → (s'.sta i).aid ≠ 0 → Shown s' i)
    (hleft : (s.sta i).aid ≠ 0 →
      ((s'.sta i).valid = true ∧ (s'.sta i).aid = (s.sta i).aid) ∨
        s'.tim (s.sta i).aid = false) : TimTruthful s' := by
  refine ⟨fun j hv ha => ?_, fun a ha hnobody => ?_⟩
  · by_cases hj : j = i
    · subst hj
      exact hself hv ha
    · rw [hothers j hj] at hv ha
      have hne : (s.sta j).aid ≠ (s.sta i).aid := fun he => hj (ht.aid_inj j i he ha)
      rw [Shown, hothers j hj, htim _ hne]
      exact h.shown j hv ha
  · by_cases hai : a = (s.sta i).aid
    · subst hai
      exact (hleft ha).resolve_left fun ⟨hv, he⟩ => hnobody i hv he
    · rw [htim a hai]
      refine h.unheld a ha fun j hv he => ?_
      by_cases hj : j = i
      · subst hj
        exact hai he.symm
      · rw [← hothers j hj] at hv he
        exact hnobody j hv he

/-- What the map is about in a station. -/
structure Signal where
  valid : Bool
  aid : ℕ
  waiting : Bool

def Station.signal (st : Station cfg) : Signal where
  valid := st.valid
  aid := st.aid
  waiting := indicateTim st

theorem signal_of_core {st st' : Station cfg} (h : st'.core = st.core)
    (hwait : indicateTim st' = indicateTim st) : st'.signal = st.signal := by
  have hvalid : st'.core.valid = st.core.valid := by rw [h]
  have haid : st'.core.aid = st.core.aid := by rw [h]
  rw [Station.signal, hwait]
  exact congrArg₂ (fun v a => Signal.mk v a (indicateTim st)) hvalid haid

/-- The map does not mind what else changes. -/
theorem TimTruthful.congr (h : TimTruthful s) (hsta : ∀ j, (s'.sta j).signal = (s.sta j).signal)
    (htim : s'.tim = s.tim) : TimTruthful s' := by
  have hvalid : ∀ j, (s'.sta j).valid = (s.sta j).valid := fun j => congrArg Signal.valid (hsta j)
  have haid : ∀ j, (s'.sta j).aid = (s.sta j).aid := fun j => congrArg Signal.aid (hsta j)
  have hwaiting : ∀ j, indicateTim (s'.sta j) = indicateTim (s.sta j) := fun j =>
    congrArg Signal.waiting (hsta j)
  refine ⟨fun j hv ha => ?_, fun a ha hnobody => ?_⟩
  · rw [hvalid] at hv
    rw [haid] at ha
    rw [Shown, haid, hwaiting, htim]
    exact h.shown j hv ha
  · rw [htim]
    refine h.unheld a ha fun j hv he => ?_
    rw [← hvalid] at hv
    rw [← haid] at he
    exact hnobody j hv he

theorem TimTruthful.modSta (h : TimTruthful s) {f : Station cfg → Station cfg}
    (hf : (f (s.sta i)).signal = (s.sta i).signal) : TimTruthful (s.modSta i f) :=
  h.congr (modSta_apply_of_eq Station.signal hf) rfl

theorem timTruthful_initAp : TimTruthful (initAp cfg) :=
  ⟨fun _ hv => absurd hv Bool.false_ne_true, fun _ _ _ => rfl⟩

/-! ## Recomputing a bit -/

theorem recalcTimGenBeacon_eq (s : ApInfo cfg) (i : StaIdx cfg) :
    recalcTimGenBeacon s i
      = { s with tim := Function.update s.tim (s.sta i).aid (indicateTim (s.sta i)) } := by
  unfold recalcTimGenBeacon staInfoRecalcTim
  dsimp only
  split
  · next hsame => rw [hsame, Function.update_eq_self]
  · rfl

theorem recalcTimGenBeacon_tim (s : ApInfo cfg) (i : StaIdx cfg) :
    (recalcTimGenBeacon s i).tim
      = Function.update s.tim (s.sta i).aid (indicateTim (s.sta i)) := by
  rw [recalcTimGenBeacon_eq]

theorem recalcTimGenBeacon_shown (s : ApInfo cfg) (i : StaIdx cfg) :
    Shown (recalcTimGenBeacon s i) i := by
  rw [recalcTimGenBeacon_eq]
  exact Function.update_self _ _ _

/-- Only station `i` and its bit change, and the station keeps its place and its AID. -/
structure Within (i : StaIdx cfg) (s s' : ApInfo cfg) : Prop where
  others : ∀ j, j ≠ i → s'.sta j = s.sta j
  valid : (s'.sta i).valid = (s.sta i).valid
  aid : (s'.sta i).aid = (s.sta i).aid
  tim : ∀ a, a ≠ (s.sta i).aid → s'.tim a = s.tim a

theorem Within.refl (i : StaIdx cfg) (s : ApInfo cfg) : Within i s s :=
  ⟨fun _ _ => rfl, rfl, rfl, fun _ _ => rfl⟩

theorem Within.trans (h : Within i s s') (h' : Within i s' s'') : Within i s s'' :=
  ⟨fun j hj => (h'.others j hj).trans (h.others j hj), h'.valid.trans h.valid, h'.aid.trans h.aid,
    fun a ha => (h'.tim a (h.aid ▸ ha)).trans (h.tim a ha)⟩

theorem Within.of_eq (hsta : s'.sta = s.sta) (htim : s'.tim = s.tim) : Within i s s' := by
  refine ⟨fun j _ => by rw [hsta], by rw [hsta], by rw [hsta], fun a _ => by rw [htim]⟩

theorem Within.modSta {f : Station cfg → Station cfg} (hv : (f (s.sta i)).valid = (s.sta i).valid)
    (ha : (f (s.sta i)).aid = (s.sta i).aid) : Within i s (s.modSta i f) := by
  refine ⟨fun j hj => modSta_sta_of_ne _ _ hj, ?_, ?_, fun _ _ => rfl⟩
  · rwa [modSta_sta_self]
  · rwa [modSta_sta_self]

theorem Within.recalcTim (s : ApInfo cfg) (i : StaIdx cfg) :
    Within i s (recalcTimGenBeacon s i) := by
  rw [recalcTimGenBeacon_eq]
  exact ⟨fun _ _ => rfl, rfl, rfl, fun a ha => Function.update_of_ne ha _ _⟩

/-- The map is truthful after an operation on one station that gets its bit right. -/
theorem TimTruthful.within (h : TimTruthful s) (ht : TableInv s.table) (hw : Within i s s')
    (hself : (s.sta i).valid = true → (s.sta i).aid ≠ 0 → Shown s' i) : TimTruthful s' := by
  refine h.change ht hw.others hw.tim (fun hv ha => ?_) fun ha => ?_
  · rw [hw.valid] at hv
    rw [hw.aid] at ha
    exact hself hv ha
  · -- a slot without a station has no AID
    have hv : (s.sta i).valid = true := by
      by_contra hnot
      exact ha (ht.blank i (Bool.eq_false_iff.mpr hnot)).2.1
    exact .inl ⟨hw.valid.trans hv, hw.aid⟩

theorem within_keptByQueues (s₀ : ApInfo cfg) (i : StaIdx cfg) :
    KeptByQueues (· = i) fun s => Within i s₀ s where
  modSta {s j f} hs hj hf := by
    subst hj
    have hv : (f (s.sta j)).still.valid = (s.sta j).still.valid := by rw [hf]
    have ha : (f (s.sta j)).still.aid = (s.sta j).still.aid := by rw [hf]
    exact hs.trans (.modSta hv ha)
  setTxDesp hs _ := hs.trans (.of_eq rfl rfl)
  setTotal hs _ := hs.trans (.of_eq rfl rfl)
  send {s} hs f bAPFrame pollFlag := by
    obtain ⟨u, b, he⟩ := callTxHandlers_neverQueued_cases s f bAPFrame pollFlag
    refine hs.trans (.of_eq ?_ ?_)
    · change (callTxHandlers neverQueued s f bAPFrame pollFlag).2.sta = s.sta
      rw [he]
    · change (callTxHandlers neverQueued s f bAPFrame pollFlag).2.tim = s.tim
      rw [he]

theorem Shown.modSta (h : Shown s i) {f : Station cfg → Station cfg}
    (hf : (f (s.sta i)).signal = (s.sta i).signal) : Shown (s.modSta i f) i := by
  have haid : (f (s.sta i)).aid = (s.sta i).aid := congrArg Signal.aid hf
  have hwaiting : indicateTim (f (s.sta i)) = indicateTim (s.sta i) := congrArg Signal.waiting hf
  rw [Shown, modSta_sta_self, haid, hwaiting]
  exact h

/-! ## Delivery and expiry -/

theorem staPsDeliverResponse_within (s : ApInfo cfg) (i : StaIdx cfg) (nFrames ignored : ℕ)
    (reason : ReleaseType) : Within i s (staPsDeliverResponse s i nFrames ignored reason) :=
  (within_keptByQueues s i).staPsDeliverResponse (fun hs _ => hs.trans (.modSta rfl rfl))
    (fun {s'} hs => hs.trans (.recalcTim s' i)) (.refl i s) rfl nFrames ignored reason

theorem staPsDeliverResponse_shown (s : ApInfo cfg) (i : StaIdx cfg) (nFrames ignored : ℕ)
    (reason : ReleaseType) : Shown (staPsDeliverResponse s i nFrames ignored reason) i := by
  unfold staPsDeliverResponse
  exact (recalcTimGenBeacon_shown _ i).modSta rfl

theorem staPsDeliverWakeup_within (s : ApInfo cfg) (i : StaIdx cfg) :
    Within i s (staPsDeliverWakeup s i) := by
  unfold staPsDeliverWakeup
  extract_lets r s₁ s₂
  have hr : Within i s r.1 :=
    List.foldlRecOn (motive := fun r : ApInfo cfg × ℕ => Within i s r.1) _ _ (.refl i s)
      fun _ hs ac _ => (within_keptByQueues s i).wakeupAc rfl ac _ hs
  clear_value r
  have h₁ : Within i r.1 s₁ := .modSta rfl rfl
  have htotal : Within i s₁ (s₁.subTotal r.2) := .of_eq rfl rfl
  have h₂ : Within i s₁ s₂ := htotal.trans (.modSta rfl rfl)
  exact hr.trans (h₁.trans (h₂.trans (.recalcTim s₂ i)))

theorem staPsDeliverWakeup_shown (s : ApInfo cfg) (i : StaIdx cfg) :
    Shown (staPsDeliverWakeup s i) i := by
  unfold staPsDeliverWakeup
  exact recalcTimGenBeacon_shown _ i

/-- The categories of a station in turn, each with a recomputation. -/
theorem cleanupExpireBuffered_within (now : ℕ) (s : ApInfo cfg) (i : StaIdx cfg) :
    Within i s (cleanupExpireBuffered now s i) :=
  List.foldlRecOn (motive := fun s' : ApInfo cfg => Within i s s') _ _ (.refl i s)
    fun _ hs ac _ =>
      ((within_keptByQueues s i).expireAc hs rfl now ac _).trans (.recalcTim _ i)

theorem cleanupExpireBuffered_shown (now : ℕ) (s : ApInfo cfg) (i : StaIdx cfg) :
    Shown (cleanupExpireBuffered now s i) i := by
  unfold cleanupExpireBuffered
  exact recalcTimGenBeacon_shown _ i

/-! ## Removal from the driver -/

/-- The loop of `purge_sta_ps_buffers` takes frames from one queue. -/
theorem purgeAc_psTxBuf (i : StaIdx cfg) (ac : Ac) (n : ℕ) (s : ApInfo cfg) (ac' : Ac) :
    ((purgeAc i ac n s).sta i).psTxBuf ac'
      = if ac' = ac then ((s.sta i).psTxBuf ac).drop n else (s.sta i).psTxBuf ac' := by
  induction n generalizing s with
  | zero =>
    rw [purgeAc, List.drop_zero]
    split
    · next he => rw [he]
    · rfl
  | succ n ih =>
    unfold purgeAc
    rcases listQDeq_cases s i ac with ⟨hq, hd⟩ | ⟨d, q, hq, hd⟩ <;> rw [hd]
    · rw [hq, List.drop_nil]
      dsimp only
      by_cases hac : ac' = ac
      · rw [if_pos hac, hac, hq]
      · rw [if_neg hac]
    · have hsta : (dropDesp (setQueue s i ac q) d).sta = (setQueue s i ac q).sta := rfl
      dsimp only
      rw [ih, hsta, setQueue_psTxBuf, setQueue_psTxBuf, hq, List.drop_succ_cons]
      simp only [true_and, if_true]
      split <;> rfl

/-- All queues of the station are empty afterwards. -/
theorem purgeStaPsBuffers_psTxBuf (s : ApInfo cfg) (i : StaIdx cfg) (ac : Ac) :
    ((purgeStaPsBuffers s i).sta i).psTxBuf ac = [] := by
  have hstays : ∀ (l : List Ac) (s : ApInfo cfg), (s.sta i).psTxBuf ac = [] →
      ((l.foldl (fun s ac => purgeAc i ac ((s.sta i).psTxBuf ac).length s) s).sta i).psTxBuf ac
        = [] := by
    intro l s h
    refine List.foldlRecOn (motive := fun s' : ApInfo cfg => (s'.sta i).psTxBuf ac = []) _ _ h
      fun s' hs ac' _ => ?_
    rw [purgeAc_psTxBuf]
    split
    · exact List.drop_length
    · exact hs
  have hall : ∀ (l : List Ac) (s : ApInfo cfg), ac ∈ l →
      ((l.foldl (fun s ac => purgeAc i ac ((s.sta i).psTxBuf ac).length s) s).sta i).psTxBuf ac
        = [] := by
    intro l
    induction l with
    | nil => exact fun s h => absurd h List.not_mem_nil
    | cons ac' l ih =>
      intro s h
      rw [List.foldl_cons]
      by_cases hac : ac = ac'
      · subst hac
        refine hstays l _ ?_
        rw [purgeAc_psTxBuf, if_pos rfl, List.drop_length]
      · exact ih _ ((List.mem_cons.mp h).resolve_left hac)
  exact hall _ s (mem_acs ac)

theorem tim_keptByQueues (s₀ : ApInfo cfg) :
    KeptByQueues (fun _ => True) fun s : ApInfo cfg => s.tim = s₀.tim where
  modSta hs _ _ := hs
  setTxDesp hs _ := hs
  setTotal hs _ := hs
  send {s} hs f bAPFrame pollFlag := by
    obtain ⟨u, b, he⟩ := callTxHandlers_neverQueued_cases s f bAPFrame pollFlag
    change (callTxHandlers neverQueued s f bAPFrame pollFlag).2.tim = s₀.tim
    rw [he]
    exact hs

@[simp] theorem apSocCmdStaOper_tim (s : ApInfo cfg) (i : StaIdx cfg) (add : Bool) :
    (apSocCmdStaOper s i add).tim = s.tim := by
  unfold apSocCmdStaOper
  dsimp only
  split <;> rfl

/-- Nothing waits for a station without frames in queues or in the firmware. -/
theorem indicateTim_eq_of_empty {st : Station cfg} (h : ∀ ac, st.psTxBuf ac = []) :
    indicateTim st = decide (0 < st.fwQLen) := by
  simp [indicateTim, h]

/-- The bit of a sleeping station is cleared, the one of a station that is awake stays. -/
theorem drvRemovePs_tim (s : ApInfo cfg) (i : StaIdx cfg) :
    (drvRemovePs s i).tim
      = if (s.sta i).psSta then Function.update s.tim (s.sta i).aid false else s.tim := by
  unfold drvRemovePs
  split
  · extract_lets s₁ s₂
    have htim : s₂.tim = s.tim := (tim_keptByQueues s).purgeStaPsBuffers rfl trivial
    have h₁ : Within i s s₁ := .modSta rfl rfl
    have hnum : Within i s { s₁ with numStaPs := dec8 s₁.numStaPs } := h₁.trans (.of_eq rfl rfl)
    have hpurge : s₂ = purgeStaPsBuffers { s₁ with numStaPs := dec8 s₁.numStaPs } i := rfl
    clear_value s₁ s₂
    have hempty : ∀ ac, (s₂.sta i).psTxBuf ac = [] := by
      rw [hpurge]
      exact purgeStaPsBuffers_psTxBuf _ i
    have haid : (s₂.sta i).aid = (s.sta i).aid := by
      rw [hpurge]
      exact ((within_keptByQueues s i).purgeStaPsBuffers hnum rfl).aid
    have hnone : indicateTim { s₂.sta i with fwQLen := unknownFwQLen } = false :=
      indicateTim_eq_of_empty hempty
    rw [recalcTimGenBeacon_tim, modSta_sta_self, hnone]
    change Function.update s₂.tim (s₂.sta i).aid false = _
    rw [htim, haid]
  · rfl

theorem drvRemove_tim (s : ApInfo cfg) (i : StaIdx cfg) :
    (drvRemove s i).tim
      = if (s.sta i).psSta then Function.update s.tim (s.sta i).aid false else s.tim := by
  rw [← drvRemovePs_tim]
  exact apSocCmdStaOper_tim _ i false

theorem drvRemove_within (s : ApInfo cfg) (i : StaIdx cfg) : Within i s (drvRemove s i) := by
  have hps : Within i s (drvRemovePs s i) := by
    unfold drvRemovePs
    split
    · extract_lets s₁ s₂
      have h₁ : Within i s s₁ := .modSta rfl rfl
      have hnum : Within i s { s₁ with numStaPs := dec8 s₁.numStaPs } := h₁.trans (.of_eq rfl rfl)
      have h₂ : Within i s s₂ := (within_keptByQueues s i).purgeStaPsBuffers hnum rfl
      clear_value s₂
      exact h₂.trans (Within.trans (.modSta rfl rfl) (.recalcTim _ i))
    · exact .refl i s
  have hoper : Within i (drvRemovePs s i) (apSocCmdStaOper (drvRemovePs s i) i false) :=
    .of_eq (apSocCmdStaOper_sta _ i false) (apSocCmdStaOper_tim _ i false)
  unfold drvRemove drvDetach
  exact hps.trans (hoper.trans (.modSta rfl rfl))

theorem drvRemove_sta_self (s : ApInfo cfg) (i : StaIdx cfg) :
    (drvRemove s i).sta i = { (drvRemovePs s i).sta i with wsidIdx := cfg.maxAid } := by
  rw [drvRemove, drvDetach, modSta_sta_self, apSocCmdStaOper_sta]

/-- The firmware is not known to hold frames for a sleeping station that is removed. -/
theorem drvRemove_fwQLen (s : ApInfo cfg) (i : StaIdx cfg) :
    ((drvRemove s i).sta i).fwQLen
      = if (s.sta i).psSta then unknownFwQLen else (s.sta i).fwQLen := by
  rw [drvRemove_sta_self]
  unfold drvRemovePs
  split
  · dsimp only
    rw [recalcTimGenBeacon, staInfoRecalcTim_sta, modSta_sta_self]
  · rfl

theorem drvRemove_shown (h : Shown s i) : Shown (drvRemove s i) i := by
  have hps : Shown (drvRemovePs s i) i := by
    unfold drvRemovePs
    split
    · exact recalcTimGenBeacon_shown _ i
    · exact h
  have hoper : Shown (apSocCmdStaOper (drvRemovePs s i) i false) i := by
    rw [Shown, apSocCmdStaOper_sta, apSocCmdStaOper_tim]
    exact hps
  unfold drvRemove drvDetach
  exact hoper.modSta rfl

/-! ## Stations leave -/

/-- What holds between two events while the map is truthful. -/
structure TimInv (s : ApInfo cfg) : Prop where
  table : TableInv s.table
  ps : PsInv s
  tim : TimTruthful s

/-- The bit of the station is cleared when it leaves, or is clear already: it has no AID, it sleeps,
or the firmware holds no frames for it. -/
def Station.Quiet (st : Station cfg) : Prop := st.aid = 0 ∨ st.psSta = true ∨ st.fwQLen ≤ 0

instance (st : Station cfg) : Decidable st.Quiet := inferInstanceAs (Decidable (_ ∨ _))

/-- Only the firmware can hold frames for a station that is awake. -/
theorem PsInv.indicateTim_awake (h : PsInv s) (hi : (s.sta i).psSta = false) :
    indicateTim (s.sta i) = decide (0 < (s.sta i).fwQLen) := by
  refine indicateTim_eq_of_empty fun ac => ?_
  by_contra hne
  exact absurd ((h.ledger.allowed i ac hne).symm.trans hi) (by simp)

theorem TimInv.setDrv (h : TimInv s) (d : Driver cfg) : TimInv { s with drv := d } :=
  ⟨h.table, h.ps.of_ps rfl, h.tim.congr (fun _ => rfl) rfl⟩

@[simp] theorem sendMgmtFrame_tim (s : ApInfo cfg) (da : EtherAddr) :
    (sendMgmtFrame s da).tim = s.tim :=
  (tim_keptByQueues s).send rfl _ _ _

theorem TimInv.sendMgmtFrame (h : TimInv s) (da : EtherAddr) : TimInv (sendMgmtFrame s da) :=
  ⟨tableInv_kept.sendMgmtFrame h.table da, psInv_kept.sendMgmtFrame h.ps da,
    h.tim.congr (fun j => by rw [sendMgmtFrame_sta]) (sendMgmtFrame_tim s da)⟩

/-- What a station tells of itself does not matter, as long as the same queues count. -/
theorem TimInv.modSta (h : TimInv s) (hv : (s.sta i).valid = true) {f : Station cfg → Station cfg}
    (hcore : (f (s.sta i)).core = (s.sta i).core)
    (hf : indicateTim (f (s.sta i)) = indicateTim (s.sta i)) : TimInv (s.modSta i f) :=
  ⟨tableInv_kept.modSta h.table hv hcore, psInv_kept.modSta h.ps hv hcore,
    h.tim.modSta (signal_of_core hcore hf)⟩

theorem TimInv.setTimeout (h : TimInv s) (i : StaIdx cfg) (t : TimeoutNext) :
    TimInv (s.modSta i fun st => { st with timeoutNext := t }) :=
  ⟨tableInv_kept.setTimeout h.table i t, psInv_kept.setTimeout h.ps i t, h.tim.modSta rfl⟩

theorem apStaSetAuthorized_tim (s : ApInfo cfg) (i : StaIdx cfg) (b : Bool) :
    (apStaSetAuthorized s i b).tim = s.tim := by
  unfold apStaSetAuthorized
  split_ifs <;> rfl

theorem apStaSetAuthorized_signal (s : ApInfo cfg) (i : StaIdx cfg) (b : Bool) (j : StaIdx cfg) :
    ((apStaSetAuthorized s i b).sta j).signal = (s.sta j).signal := by
  by_cases hj : j = i
  · subst hj
    rw [apStaSetAuthorized_sta_self]
    rfl
  · rw [apStaSetAuthorized_sta_of_ne s b hj]

theorem TimTruthful.apStaSetAuthorized (h : TimTruthful s) (i : StaIdx cfg) (b : Bool) :
    TimTruthful (apStaSetAuthorized s i b) :=
  h.congr (apStaSetAuthorized_signal s i b) (apStaSetAuthorized_tim s i b)

theorem TimInv.withdraw (h : TimInv s) (i : StaIdx cfg) : TimInv (apStaSetAuthorized s i false) :=
  ⟨tableInv_kept.withdraw h.table i, psInv_kept.withdraw h.ps i, h.tim.apStaSetAuthorized i false⟩

theorem TimInv.drvRemove (h : TimInv s) (i : StaIdx cfg) : TimInv (drvRemove s i) :=
  ⟨tableInv_kept.drvRemove h.table i, psInv_kept.drvRemove h.ps i,
    h.tim.within h.table (drvRemove_within s i) fun hv ha => drvRemove_shown (h.tim.shown i hv ha)⟩

theorem Station.Quiet.drvRemove (h : (s.sta i).Quiet) : ((drvRemove s i).sta i).Quiet := by
  have haid := (drvRemove_within s i).aid
  have hlen := drvRemove_fwQLen s i
  rcases h with h | h | h
  · exact .inl (haid.trans h)
  · rw [h, if_pos rfl] at hlen
    exact .inr (.inr (hlen.trans_le (by decide)))
  · refine .inr (.inr ?_)
    rw [hlen]
    split
    · decide
    · exact h

/-- A sleeping station wakes up and loses its frames; nothing else about the map changes. -/
theorem TimInv.changeStaDisassocToDeauth (h : TimInv s) (i : StaIdx cfg) (timerCreat : Bool) :
    TimInv (changeStaDisassocToDeauth s i timerCreat) := by
  unfold Ap.changeStaDisassocToDeauth
  extract_lets s₁ s₂
  have h₁ : TimInv s₁ := h.withdraw i
  have hassoc : TimInv (s₁.modSta i fun st => { st with assoc := false }) := by
    have hauth := apStaSetAuthorized_authorized s i false
    exact ⟨tableInv_kept.clearAssoc h₁.table hauth, psInv_kept.clearAssoc h₁.ps hauth,
      h₁.tim.modSta rfl⟩
  have h₂ : TimInv s₂ := hassoc.drvRemove i
  split
  · exact ((h₂.setTimeout i .deauth).setDrv _).setDrv _
  · exact h₂

theorem Station.Quiet.changeStaDisassocToDeauth (h : (s.sta i).Quiet) (timerCreat : Bool) :
    ((changeStaDisassocToDeauth s i timerCreat).sta i).Quiet := by
  unfold Ap.changeStaDisassocToDeauth
  extract_lets s₁ s₂
  have h₁ : (s₁.sta i).Quiet := by
    dsimp only [s₁]
    rw [apStaSetAuthorized_sta_self]
    exact h
  have hassoc : ((s₁.modSta i fun st => { st with assoc := false }).sta i).Quiet := by
    rw [modSta_sta_self]
    exact h₁
  have h₂ : (s₂.sta i).Quiet := hassoc.drvRemove
  clear_value s₂
  split
  · change ((s₂.modSta i fun st => { st with timeoutNext := .deauth }).sta i).Quiet
    rw [modSta_sta_self]
    exact h₂
  · exact h₂

theorem endSessions_tim (s : ApInfo cfg) (i : StaIdx cfg) : (endSessions s i).tim = s.tim := by
  unfold endSessions
  split <;> rfl

theorem clearCounted_tim (s : ApInfo cfg) (i : StaIdx cfg) (c : Counted) :
    (clearCounted s i c).tim = s.tim := by
  unfold clearCounted
  split <;> rfl

/-- The map after `APStaInfo_free`. -/
theorem apStaInfoFree_tim (hv : (s.sta i).valid = true) :
    (apStaInfoFree s i).tim
      = if (s.sta i).psSta then Function.update s.tim (s.sta i).aid false else s.tim := by
  unfold apStaInfoFree
  rw [if_neg (by simp [hv])]
  extract_lets s₁ s₂ s₃ s₄
  have hsta : (apStaSetAuthorized s₁ i false).sta i
      = { s.sta i with valid := false, authorized := false } := by
    rw [apStaSetAuthorized_sta_self]
    dsimp only [s₁]
    rw [endSessions_sta, modSta_sta_self]
  have htim : (apStaSetAuthorized s₁ i false).tim = s.tim :=
    (apStaSetAuthorized_tim s₁ i false).trans (endSessions_tim _ i)
  have h₂ : s₂.tim
      = if (s.sta i).psSta then Function.update s.tim (s.sta i).aid false else s.tim := by
    dsimp only [s₂]
    rw [drvRemove_tim, hsta, htim]
  have h₃ : s₃.tim = s₂.tim := by
    dsimp only [s₃]
    unfold decNumSta releaseAid
    split_ifs <;> rfl
  have h₄ : s₄.tim = s₃.tim :=
    List.foldlRecOn (motive := fun s' : ApInfo cfg => s'.tim = s₃.tim) _ _ rfl
      fun s' hs c _ => (clearCounted_tim s' i c).trans hs
  clear_value s₁ s₂ s₃ s₄
  exact h₄.trans (h₃.trans h₂)

/-- A station that is quiet may leave, whatever has been recorded of it. -/
theorem TimInv.leave (h : TimInv s) (hv : (s.sta i).valid = true) (hq : (s.sta i).Quiet)
    {f : Station cfg → Station cfg} (hvalid : (f (s.sta i)).valid = (s.sta i).valid)
    (haid : (f (s.sta i)).aid = (s.sta i).aid) (hpsSta : (f (s.sta i)).psSta = (s.sta i).psSta) :
    TimTruthful (Ap.apStaInfoFree (s.modSta i f) i) := by
  have hself : (s.modSta i f).sta i = f (s.sta i) := modSta_sta_self s i f
  have hv' : ((s.modSta i f).sta i).valid = true := by rw [hself, hvalid, hv]
  have htim := apStaInfoFree_tim hv'
  rw [hself, hpsSta, haid] at htim
  refine h.tim.change h.table (i := i) (fun j hj => ?_) (fun a ha => ?_) (fun hgone => ?_)
    fun ha => .inr ?_
  · rw [apStaInfoFree_sta_of_ne _ hj, modSta_sta_of_ne _ _ hj]
  · rw [htim]
    split
    · exact Function.update_of_ne ha _ _
    · rfl
  · rw [apStaInfoFree_sta_self hv'] at hgone
    exact absurd hgone Bool.false_ne_true
  · rw [htim]
    cases hps : (s.sta i).psSta with
    | true =>
      rw [if_pos rfl]
      exact Function.update_self _ _ _
    | false =>
      rw [if_neg Bool.false_ne_true]
      have hlen : (s.sta i).fwQLen ≤ 0 := by
        rcases hq with hquiet | hquiet | hquiet
        · exact absurd hquiet ha
        · exact absurd (hps.symm.trans hquiet) (by simp)
        · exact hquiet
      have hshown : s.tim (s.sta i).aid = indicateTim (s.sta i) := h.tim.shown i hv ha
      change s.tim (s.sta i).aid = false
      rw [hshown, h.ps.indicateTim_awake hps]
      simpa using hlen

theorem TimInv.apStaInfoFree (h : TimInv s) (hq : (s.sta i).valid = true → (s.sta i).Quiet) :
    TimInv (apStaInfoFree s i) := by
  refine ⟨tableInv_kept.apStaInfoFree h.table i, psInv_kept.apStaInfoFree h.ps i, ?_⟩
  cases hv : (s.sta i).valid with
  | false =>
    have hsame : Ap.apStaInfoFree s i = s := by
      unfold Ap.apStaInfoFree
      simp [hv]
    rw [hsame]
    exact h.tim
  | true =>
    have hsame : s.modSta i id = s := modSta_eq_self rfl
    have hleave := h.leave hv (hq hv) (f := id) rfl rfl rfl
    rwa [hsame] at hleave

theorem TimInv.removeSilent (h : TimInv s) (hq : (s.sta i).valid = true → (s.sta i).Quiet) :
    TimInv (removeSilent s i) := by
  unfold Ap.removeSilent
  extract_lets s₁ s₂
  have h₁ : TimInv s₁ := (h.changeStaDisassocToDeauth i false).setTimeout i .deauth
  have h₂ : TimInv s₂ := h₁.setDrv _
  refine (h₂.sendMgmtFrame _).apStaInfoFree fun hv => ?_
  have hs₂ : s₂.sta i = { (Ap.changeStaDisassocToDeauth s i false).sta i with
      timeoutNext := .deauth } :=
    modSta_sta_self (Ap.changeStaDisassocToDeauth s i false) i fun st =>
      { st with timeoutNext := .deauth }
  rw [sendMgmtFrame_sta, hs₂] at hv
  rw [sendMgmtFrame_sta, hs₂]
  exact (hq (changeStaDisassocToDeauth_noneJoined s i false i hv).1).changeStaDisassocToDeauth false

/-! ## Making room for a station -/

/-- `APStaInfo_add` removes station `i`: the one in slot 0 if it is silent, else the most silent one
if the table is full. -/
def Evicts (s : ApInfo cfg) (i : StaIdx cfg) : Prop :=
  let first : StaIdx cfg := ⟨0, cfg.maxAid_pos⟩
  if staTimeoutRetryCount < (s.sta first).arpRetryCount ∧ (s.sta first).valid = true then i = first
  else cfg.maxAid ≤ s.numSta ∧ mostSilent s = some i

theorem drvRemove_arpRetryCount (s : ApInfo cfg) (i j : StaIdx cfg) :
    ((drvRemove s i).sta j).arpRetryCount = (s.sta j).arpRetryCount := by
  by_cases hj : j = i
  · subst hj
    have hctl := congrArg (fun c : ApInfo cfg => (c.sta j).arpRetryCount) (drvRemove_ctl s j)
    refine hctl.trans ?_
    rw [drvDetach, modSta_sta_self, apSocCmdStaOper_sta]
    split
    · rw [ApInfo.setPs, modSta_sta_self]
      rfl
    · rfl
  · rw [drvRemove_sta_of_ne s hj]

/-- Removing somebody who is not there asks nobody more or less often. -/
theorem removeSilent_arpRetryCount (hv : (s.sta i).valid = false) (j : StaIdx cfg) :
    ((removeSilent s i).sta j).arpRetryCount = (s.sta j).arpRetryCount := by
  unfold removeSilent
  extract_lets s₁ s₂
  have hauth : ∀ j, ((apStaSetAuthorized s i false).sta j).arpRetryCount
      = (s.sta j).arpRetryCount := by
    intro j
    by_cases hj : j = i
    · subst hj
      rw [apStaSetAuthorized_sta_self]
    · rw [apStaSetAuthorized_sta_of_ne s false hj]
  have hchange : ∀ j, ((changeStaDisassocToDeauth s i false).sta j).arpRetryCount
      = (s.sta j).arpRetryCount := by
    intro j
    unfold changeStaDisassocToDeauth
    dsimp only
    rw [if_neg (by simp), drvRemove_arpRetryCount]
    exact (modSta_apply_of_eq Station.arpRetryCount rfl j).trans (hauth j)
  have h₂ : ∀ j, (s₂.sta j).arpRetryCount = (s.sta j).arpRetryCount := fun j =>
    (modSta_apply_of_eq (f := fun st => { st with timeoutNext := .deauth })
      Station.arpRetryCount rfl j).trans (hchange j)
  have hgone : (s₂.sta i).valid = false := by
    have hnone := changeStaDisassocToDeauth_noneJoined s i false i
    have hsame : (s₂.sta i).valid = ((changeStaDisassocToDeauth s i false).sta i).valid :=
      modSta_apply_of_eq (f := fun st => { st with timeoutNext := .deauth }) Station.valid rfl i
    by_contra hnot
    rw [hsame, Bool.not_eq_false] at hnot
    exact absurd (hv.symm.trans (hnone hnot).1) (by simp)
  have hfree : apStaInfoFree (sendMgmtFrame s₂ (s₂.sta i).addr) i
      = sendMgmtFrame s₂ (s₂.sta i).addr := by
    unfold apStaInfoFree
    rw [sendMgmtFrame_sta, hgone]
    rfl
  rw [hfree, sendMgmtFrame_sta]
  exact h₂ j

/-- If there was nobody in slot 0 to remove, the rest of `APStaInfo_add` sees the same table. -/
theorem mostSilent_removeSilent (hv : (s.sta i).valid = false) :
    mostSilent (removeSilent s i) = mostSilent s := by
  unfold mostSilent
  simp only [removeSilent_arpRetryCount hv]

theorem removeSilent_numSta (h : TableInv s.table) (hv : (s.sta i).valid = false) :
    (removeSilent s i).numSta = s.numSta := by
  have h' : TableInv (removeSilent s i).table := tableInv_keptByRemoval.removeSilent h i
  refine h'.numSta.trans (Eq.trans (Table.count_congr fun j => ?_) h.numSta.symm)
  by_cases hj : j = i
  · subst hj
    exact (removeSilent_valid s j).trans hv.symm
  · exact congrArg Station.valid (removeSilent_sta_of_ne s hj)

/-- After the removal of a station the table is not full. -/
theorem removeSilent_numSta_lt (h : TableInv s.table) (i : StaIdx cfg) :
    (removeSilent s i).numSta < cfg.maxAid := by
  have h' : TableInv (removeSilent s i).table := tableInv_keptByRemoval.removeSilent h i
  have hlt := Table.count_lt (p := StaEntry.valid) (t := (removeSilent s i).table.sta)
    (removeSilent_valid s i)
  rw [Fintype.card_fin, ← h'.numSta] at hlt
  exact hlt

/-- Whoever `APStaInfo_add` removes is quiet. -/
def EvictsQuiet (s : ApInfo cfg) : Prop :=
  ∀ i, Evicts s i → (s.sta i).valid = true → (s.sta i).Quiet

/-- The second half of `evictSilent`: when the table is full, the most silent station is removed. -/
def evictMostSilent (s : ApInfo cfg) : ApInfo cfg :=
  if cfg.maxAid ≤ s.numSta then
    match mostSilent s with
    | some i => removeSilent s i
    | none => s
  else s

theorem TimInv.evictSilent (h : TimInv s) (hq : EvictsQuiet s) : TimInv (evictSilent s) := by
  have hmost : ∀ {s : ApInfo cfg}, TimInv s →
      (cfg.maxAid ≤ s.numSta → ∀ i, mostSilent s = some i → (s.sta i).valid = true →
        (s.sta i).Quiet) →
      TimInv (evictMostSilent s) := by
    intro s hs hi
    unfold evictMostSilent
    split
    · next hfull =>
      split
      · next i hsome => exact hs.removeSilent (hi hfull i hsome)
      · exact hs
    · exact hs
  unfold EvictsQuiet Evicts at hq
  unfold Ap.evictSilent
  dsimp only at hq ⊢
  generalize (⟨0, cfg.maxAid_pos⟩ : StaIdx cfg) = first at hq ⊢
  by_cases hsilent : staTimeoutRetryCount < (s.sta first).arpRetryCount
  · rw [if_pos hsilent]
    cases hv : (s.sta first).valid with
    | true =>
      rw [if_neg (removeSilent_numSta_lt h.table first).not_ge]
      refine h.removeSilent fun _ => hq first ?_ hv
      rw [if_pos ⟨hsilent, hv⟩]
    | false =>
      have hfirst : TimInv (Ap.removeSilent s first) :=
        h.removeSilent fun hv' => absurd (hv.symm.trans hv') (by simp)
      refine hmost hfirst fun hfull i hsome hvi => ?_
      rw [removeSilent_numSta h.table hv] at hfull
      rw [mostSilent_removeSilent hv] at hsome
      have hne : i ≠ first := by
        rintro rfl
        exact absurd ((removeSilent_valid s i).symm.trans hvi) (by simp)
      rw [removeSilent_sta_of_ne s hne] at hvi ⊢
      refine hq i ?_ hvi
      rw [if_neg fun hc => absurd (hv.symm.trans hc.2) (by simp)]
      exact ⟨hfull, hsome⟩
  · rw [if_neg hsilent]
    refine hmost h fun hfull i hsome => hq i ?_
    rw [if_neg fun hc => hsilent hc.1]
    exact ⟨hfull, hsome⟩

/-- A new station has no AID yet. -/
theorem TimTruthful.takeSlot (h : TimTruthful s) (ht : TableInv s.table)
    (hv : (s.sta i).valid = false) (addr : EtherAddr) : TimTruthful (takeSlot s i addr) := by
  have haid : (s.sta i).aid = 0 := (ht.blank i hv).2.1
  have hself := takeSlot_sta_self s i addr
  refine h.change ht (fun j hj => takeSlot_sta_of_ne s addr hj) (fun _ _ => rfl) (fun _ ha => ?_)
    fun ha => absurd haid ha
  rw [hself] at ha
  exact absurd haid ha

theorem TimInv.apStaInfoAdd (h : TimInv s) (addr : EtherAddr)
    (hq : findStaByAddr s addr = none → EvictsQuiet s) : TimInv (apStaInfoAdd s addr).2 := by
  refine ⟨tableInv_kept.apStaInfoAdd h.table addr, psInv_kept.apStaInfoAdd h.ps addr, ?_⟩
  rcases apStaInfoAdd_cases s addr with ⟨i, -, he⟩ | ⟨hnone, -, he⟩ | ⟨i, hnone, hi, he⟩ <;> rw [he]
  · exact h.tim
  · exact (h.evictSilent (hq hnone)).tim
  · have hevict := h.evictSilent (hq hnone)
    exact hevict.tim.takeSlot hevict.table (getNewSta_valid hi) addr

end Fullmac.Ap
