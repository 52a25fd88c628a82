import Fullmac.Ap.Frame

/-!
# Invariants and handlers

The handlers of requests, timers and frames are put together from a few operations on one station.
`Kept I` lists these, with what the handlers know when they call them; an invariant that each of
them keeps is kept by every event (`Kept.apStep`) and holds after every run (`Kept.run`). What an
operation does is left to the invariants; here is only which handler calls which.

The operations that remove a station come first (`KeptByRemoval`): `APStaInfo_add` is made of them,
so that an invariant needs them for its own proof about adding.
-/

namespace Fullmac.Ap

variable {cfg : ApCfg}

/-- The invariant survives what it takes to remove a station. -/
structure KeptByRemoval (I : ApInfo cfg → Prop) : Prop where
  modSta : ∀ {s i} {f : Station cfg → Station cfg}, I s → (s.sta i).valid = true →
    (f (s.sta i)).core = (s.sta i).core → I (s.modSta i f)
  setTimeout : ∀ {s}, I s → ∀ i t, I (s.modSta i fun st => { st with timeoutNext := t })
  setDrv : ∀ {s} {d : Driver cfg}, I s → d.tests = s.drv.tests → I { s with drv := d }
  clearAssoc : ∀ {s i}, I s → (s.sta i).authorized = false →
    I (s.modSta i fun st => { st with assoc := false })
  clearAuth : ∀ {s i}, I s → (s.sta i).authorized = false →
    I (s.modSta i fun st => { st with auth := false, assoc := false })
  sendMgmtFrame : ∀ {s}, I s → ∀ da, I (sendMgmtFrame s da)
  withdraw : ∀ {s}, I s → ∀ i, I (apStaSetAuthorized s i false)
  drvRemove : ∀ {s}, I s → ∀ i, I (drvRemove s i)
  apStaInfoFree : ∀ {s}, I s → ∀ i, I (apStaInfoFree s i)

/-- The invariant survives everything the handlers do, if the WPA state machine authorises only
stations that satisfy `G`. -/
structure Kept (G : Station cfg → Prop) (I : ApInfo cfg → Prop) : Prop extends KeptByRemoval I where
  grant : ∀ {s i}, I s → (s.sta i).valid = true → G (s.sta i) → I (apStaSetAuthorized s i true)
  apStaInfoAdd : ∀ {s}, I s → ∀ addr, I (apStaInfoAdd s addr).2
  authenticate : ∀ {s i}, I s → (s.sta i).valid = true → ∀ r,
    I (s.modSta i fun _ => (authenticate (s.sta i) r).2)
  tryAssoc : ∀ {s i}, I s → (s.sta i).valid = true → (s.sta i).auth = true → ∀ r,
    I (tryAssoc s i r).2
  apStaPsStart : ∀ {s i}, I s → (s.sta i).psSta = false → (s.sta i).valid = true →
    I (apStaPsStart s i)
  apStaPsEnd : ∀ {s i}, I s → (s.sta i).psSta = true → I (apStaPsEnd s i)
  recalcTimGenBeacon : ∀ {s}, I s → ∀ i, I (recalcTimGenBeacon s i)
  staPsDeliverPollResponse : ∀ {s}, I s → ∀ i, I (staPsDeliverPollResponse s i)
  staPsDeliverUapsd : ∀ {s}, I s → ∀ i, I (staPsDeliverUapsd s i)
  dataCouldBeSend : ∀ {s}, I s → ∀ now f bAPFrame pollFlag,
    I (dataCouldBeSend (txHUnicastPsBuf now) s f bAPFrame pollFlag).2
  staInfoCleanup : ∀ {s}, I s → ∀ now, I (staInfoCleanup now s)

variable {G : Station cfg → Prop} {I : ApInfo cfg → Prop} {s : ApInfo cfg}

theorem apStaSetAuthorized_authorized (s : ApInfo cfg) (i : StaIdx cfg) (b : Bool) :
    ((apStaSetAuthorized s i b).sta i).authorized = b := by
  rw [apStaSetAuthorized_sta_self]

/-! ## Removal -/

theorem KeptByRemoval.changeStaDisassocToDeauth (h : KeptByRemoval I) (hs : I s) (i : StaIdx cfg)
    (timerCreat : Bool) : I (changeStaDisassocToDeauth s i timerCreat) := by
  unfold Ap.changeStaDisassocToDeauth
  extract_lets s₁ s₂
  have h₁ : I s₁ := h.withdraw hs i
  have h₂ : I s₂ := h.drvRemove (h.clearAssoc h₁ (apStaSetAuthorized_authorized s i false)) i
  split
  · exact h.setDrv (h.setDrv (h.setTimeout h₂ i .deauth) rfl) rfl
  · exact h₂

theorem KeptByRemoval.removeSilent (h : KeptByRemoval I) (hs : I s) (i : StaIdx cfg) :
    I (removeSilent s i) := by
  unfold Ap.removeSilent
  extract_lets s₁ s₂
  have h₁ : I s₁ := h.setTimeout (h.changeStaDisassocToDeauth hs i false) i .deauth
  have h₂ : I s₂ := h.setDrv h₁ rfl
  exact h.apStaInfoFree (h.sendMgmtFrame h₂ _) i

theorem KeptByRemoval.evictSilent (h : KeptByRemoval I) (hs : I s) : I (evictSilent s) := by
  unfold Ap.evictSilent
  extract_lets first s₁
  have h₁ : I s₁ := by
    dsimp only [s₁]
    split
    · exact h.removeSilent hs first
    · exact hs
  split
  · split
    · next i _ => exact h.removeSilent h₁ i
    · exact h₁
  · exact h₁

theorem KeptByRemoval.mlmeRxDisassoc (h : KeptByRemoval I) (hs : I s) (sa : EtherAddr) :
    I (mlmeRxDisassoc s sa) := by
  unfold Ap.mlmeRxDisassoc
  split
  · exact hs
  · next i _ => exact h.apStaInfoFree (h.changeStaDisassocToDeauth hs i true) i

theorem KeptByRemoval.mlmeRxDeauth (h : KeptByRemoval I) (hs : I s) (sa : EtherAddr) :
    I (mlmeRxDeauth s sa) := by
  unfold Ap.mlmeRxDeauth
  split
  · exact hs
  · next i _ =>
    extract_lets s₁
    have h₁ : I s₁ := h.clearAuth (h.withdraw hs i) (apStaSetAuthorized_authorized s i false)
    exact h.apStaInfoFree h₁ i

theorem KeptByRemoval.timerEscalates (h : KeptByRemoval I) (hs : I s) {i : StaIdx cfg}
    (hv : (s.sta i).valid = true) : I (timerEscalates s i) := by
  unfold Ap.timerEscalates
  extract_lets st s₁ s₂ s₃
  have h₁ : I s₁ := h.modSta hs hv rfl
  have h₂ : I s₂ := h.sendMgmtFrame hs _
  have h₃ : I s₃ := h.changeStaDisassocToDeauth h₂ i false
  split_ifs
  · exact h.setDrv h₁ rfl
  · split
    · exact h.setDrv (h.setTimeout h₂ i .disassoc) rfl
    · exact h.setDrv (h.setTimeout h₃ i .deauth) rfl
    · exact h.apStaInfoFree h₂ i
    · exact h.apStaInfoFree h₂ i

theorem KeptByRemoval.apHandleTimer (h : KeptByRemoval I) (hs : I s) (i : StaIdx cfg)
    (hostApiActive : Bool) (inactive : ℤ) : I (apHandleTimer s i hostApiActive inactive) := by
  unfold Ap.apHandleTimer
  extract_lets s₁ r s₂
  have h₁ : I s₁ := h.setDrv hs rfl
  split_ifs with hv _ _ hnext
  · exact h₁
  · exact h.apStaInfoFree h₁ i
  · exact h.setDrv h₁ rfl
  all_goals
    rw [Bool.not_eq_true', Bool.not_eq_false] at hv
    have h₂ : I s₂ := h.modSta h₁ hv (timerForgives_core _ _)
  · exact h.setDrv h₂ rfl
  · refine h.timerEscalates h₂ ?_
    rw [modSta_sta_self]
    exact (congrArg Station.valid (timerForgives_core (s₁.sta i) inactive)).trans hv

/-! ## Requests -/

/-- Who `APStaInfo_FindStaByAddr` finds is there. -/
theorem findStaByAddr_valid {mac : EtherAddr} {i : StaIdx cfg} (h : findStaByAddr s mac = some i) :
    (s.sta i).valid = true := by
  have hp := List.find?_some h
  rw [Bool.and_eq_true] at hp
  exact hp.1

/-- The slot that `APStaInfo_GetNewSta` finds is free. -/
theorem getNewSta_valid {i : StaIdx cfg} (h : getNewSta s = some i) : (s.sta i).valid = false := by
  simpa using List.find?_some h

/-- `APStaInfo_add` finds the station, finds no room, or takes a free slot. -/
theorem apStaInfoAdd_cases (s : ApInfo cfg) (addr : EtherAddr) :
    (∃ i, findStaByAddr s addr = some i ∧ apStaInfoAdd s addr = (some i, s)) ∨
    (findStaByAddr s addr = none ∧ getNewSta (evictSilent s) = none ∧
      apStaInfoAdd s addr = (none, evictSilent s)) ∨
    (∃ i, findStaByAddr s addr = none ∧ getNewSta (evictSilent s) = some i ∧
      apStaInfoAdd s addr = (some i, takeSlot (evictSilent s) i addr)) := by
  unfold apStaInfoAdd
  cases hfind : findStaByAddr s addr with
  | some i => exact .inl ⟨i, rfl, rfl⟩
  | none =>
    cases hnew : getNewSta (evictSilent s) with
    | none => exact .inr (.inl ⟨rfl, rfl, by simp only [hnew]⟩)
    | some i => exact .inr (.inr ⟨i, rfl, rfl, by simp only [hnew]⟩)

/-- Who `APStaInfo_add` returns is there. -/
theorem apStaInfoAdd_valid {addr : EtherAddr} (i : StaIdx cfg)
    (h : (apStaInfoAdd s addr).1 = some i) : ((apStaInfoAdd s addr).2.sta i).valid = true := by
  rcases apStaInfoAdd_cases s addr with ⟨j, hj, he⟩ | ⟨-, -, he⟩ | ⟨j, -, -, he⟩ <;>
    rw [he] at h ⊢ <;> cases h
  · exact findStaByAddr_valid hj
  · simp only [takeSlot, modSta_sta_self]

theorem Kept.mlmeRxAuth (h : Kept G I) (hs : I s) (r : AuthReq) : I (mlmeRxAuth s r).1 := by
  unfold Ap.mlmeRxAuth
  split_ifs
  · exact hs
  · exact h.sendMgmtFrame hs _
  · have hadd := h.apStaInfoAdd hs r.sa
    have hvalid := @apStaInfoAdd_valid cfg s r.sa
    split
    · next s₁ he =>
      rw [he] at hadd
      exact h.sendMgmtFrame hadd _
    · next i s₁ he =>
      rw [he] at hadd hvalid
      extract_lets a s₂ s₃
      have h₂ : I s₂ := h.authenticate hadd (hvalid i rfl) r
      have h₃ : I s₃ := by
        dsimp only [s₃]
        split
        · exact h₂
        · exact h.apStaInfoFree h₂ i
      exact h.sendMgmtFrame h₃ _

theorem Kept.handleAssoc (h : Kept G I) (hs : I s) (r : AssocReq) : I (handleAssoc s r).1 := by
  unfold Ap.handleAssoc
  extract_lets notAuthed
  have hnot : I notAuthed := by
    dsimp only [notAuthed]
    split
    · exact h.sendMgmtFrame hs _
    · exact hs
  split_ifs
  · exact hs
  · split
    · exact hnot
    · next i hi =>
      split_ifs with hauth
      · exact hnot
      · extract_lets t s₁ st
        rw [Bool.not_eq_true', Bool.not_eq_false] at hauth
        have htry : I t.2 := h.tryAssoc hs (findStaByAddr_valid hi) hauth r
        have h₁ : I s₁ := by
          dsimp only [s₁]
          split
          · exact htry
          · exact h.apStaInfoFree htry i
        exact h.sendMgmtFrame h₁ _

/-- An association request is refused, before or after its elements have been recorded, or the
station gets an AID and is recorded. -/
theorem tryAssoc_cases (s : ApInfo cfg) (i : StaIdx cfg) (r : AssocReq) :
    ((tryAssoc s i r).1 ≠ .success ∧
      ((tryAssoc s i r).2 = s ∨
        (tryAssoc s i r).2 = s.modSta i fun _ => (checkAssocIes (s.sta i) r.elems).2)) ∨
    ∃ s', hostapdGetAid (s.modSta i fun _ => (checkAssocIes (s.sta i) r.elems).2) i = some s' ∧
      tryAssoc s i r = (.success, apSocCmdStaOper (recordAssoc s' i r) i true) := by
  unfold Ap.tryAssoc
  extract_lets c s₁
  by_cases hmic : r.tkipCountermeasures = true
  · rw [if_pos hmic]
    exact .inl ⟨nofun, .inl rfl⟩
  by_cases hlisten : maxListenInterval < r.listenInterval
  · rw [if_neg hmic, if_pos hlisten]
    exact .inl ⟨nofun, .inl rfl⟩
  by_cases hies : c.1 ≠ .success
  · rw [if_neg hmic, if_neg hlisten, if_pos hies]
    exact .inl ⟨hies, .inr rfl⟩
  rw [if_neg hmic, if_neg hlisten, if_neg hies]
  cases hget : hostapdGetAid s₁ i with
  | none => exact .inl ⟨nofun, .inr rfl⟩
  | some s' => exact .inr ⟨s', rfl, rfl⟩

/-- What `handle_assoc` records of an accepted station, step by step: `P` holds until it is
associated, `Q` from then on. -/
theorem recordAssoc_rule {P Q : ApInfo cfg → Prop} {i : StaIdx cfg}
    (hmod : ∀ {s} {f : Station cfg → Station cfg}, P s → (f (s.sta i)).core = (s.sta i).core →
      indicateTim (f (s.sta i)) = indicateTim (s.sta i) → P (s.modSta i f))
    (hcount : ∀ {s}, P s → ∀ c, P (setCounted s i c))
    (hassoc : ∀ {s}, P s → Q (s.modSta i fun st => { st with assoc := true }))
    (hauth : ∀ {s}, Q s → Q (apStaSetAuthorized s i true))
    (hlast : ∀ {s}, Q s → Q (s.modSta i fun st => { st with timeoutNext := .nullfunc }))
    (hs : P s) (r : AssocReq) : Q (recordAssoc s i r) := by
  have hunless : ∀ {s} {p : Prop} [Decidable p] {c : Counted}, P s →
      P (if p then s else setCounted s i c) := by
    intro s p _ c hs
    split
    · exact hs
    · exact hcount hs c
  have hht : ∀ {s}, P s → P (updateHtState s i) := by
    intro s hs
    unfold updateHtState
    extract_lets s₁
    split
    · exact hunless (hunless hs)
    · exact hcount hs _
  unfold recordAssoc
  extract_lets fast s₁ s₂ s₃ s₄ s₅ s₆ s₇
  have h₁ : P s₁ := hmod hs rfl rfl
  have h₂ : P s₂ := by
    dsimp only [s₂]
    split
    · exact hcount h₁ _
    · exact h₁
  have h₃ : P s₃ := hunless h₂
  have h₄ : P s₄ := hmod h₃ rfl rfl
  have h₅ : P s₅ := hunless h₄
  have h₆ : Q s₆ := hassoc (hht h₅)
  have h₇ : Q s₇ := by
    dsimp only [s₇]
    split
    · exact h₆
    · exact hauth h₆
  exact hlast h₇

/-! ## Received frames -/

theorem Kept.rxHUapsdAndPspoll (h : Kept G I) (hs : I s) (rx : RxDesp cfg) :
    I (rxHUapsdAndPspoll s rx).2 := by
  unfold Ap.rxHUapsdAndPspoll
  dsimp only
  split_ifs
  · exact hs
  · exact h.staPsDeliverPollResponse hs rx.sta
  · exact hs
  · exact hs
  · exact h.staPsDeliverUapsd hs rx.sta
  · exact hs

theorem Kept.rxHStaProcess (h : Kept G I) (hs : I s) {rx : RxDesp cfg}
    (hv : (s.sta rx.sta).valid = true) : I (rxHStaProcess s rx) := by
  unfold Ap.rxHStaProcess
  dsimp only
  split_ifs with hps
  · exact h.apStaPsEnd hs hps
  · exact hs
  · exact h.recalcTimGenBeacon (h.apStaPsStart hs (Bool.eq_false_iff.mpr hps) hv) rx.sta
  · exact h.apStaPsStart hs (Bool.eq_false_iff.mpr hps) hv
  · exact hs

theorem Kept.dataNeedToBeReceived (h : Kept G I) (hs : I s) {rx : RxDesp cfg}
    (hv : (s.sta rx.sta).valid = true) : I (dataNeedToBeReceived s rx) := by
  have hpoll := h.rxHUapsdAndPspoll hs rx
  have hvalid : ((Ap.rxHUapsdAndPspoll s rx).2.sta rx.sta).valid = true := by
    have ht := congrFun (congrArg ApInfo.sta (rxHUapsdAndPspoll_ctl s rx)) rx.sta
    exact (congrArg Station.valid ht).trans hv
  unfold Ap.dataNeedToBeReceived
  split
  · split
    · next he =>
      rw [he] at hpoll hvalid
      exact h.rxHStaProcess hpoll hvalid
    · next he =>
      rw [he] at hpoll
      exact hpoll
  · exact hs

theorem Kept.rxFrame (h : Kept G I) (hs : I s) (sa : EtherAddr) (kind : RxKind) (pm : Bool)
    (up : ℕ) : I (rxFrame s sa kind pm up) := by
  unfold Ap.rxFrame
  split
  · exact h.sendMgmtFrame hs sa
  · next i hi =>
    extract_lets s₁ s₂ rx
    have h₁ : I s₁ := h.modSta hs (findStaByAddr_valid hi) rfl
    have h₂ : I s₂ := by
      dsimp only [s₂]
      split
      · exact h₁
      · exact h.sendMgmtFrame h₁ sa
    have hrx : rx.sta = i := by
      dsimp only [rx]
      split <;> rfl
    have ht : s₂.table = s.table := by
      have ht₁ : s₁.table = s.table := table_modSta_of_eq rfl
      dsimp only [s₂]
      split
      · exact ht₁
      · rw [table_of_ctl (sendMgmtFrame_ctl _ _), ht₁]
    have hv : (s₂.sta rx.sta).valid = true := by
      have hi' := congrFun (congrArg StaTable.sta ht) i
      rw [hrx]
      exact (congrArg StaEntry.valid hi').trans (findStaByAddr_valid hi)
    exact h.dataNeedToBeReceived h₂ hv

/-! ## Events -/

/-- The WPA state machine authorises only stations that satisfy `G`. -/
def GrantsOnly (G : Station cfg → Prop) (s : ApInfo cfg) : ApEvent cfg → Prop
  | .setAuthorized addr true => ∀ i, findStaByAddr s addr = some i → G (s.sta i)
  | _ => True

/-- Every event keeps the invariant. -/
theorem Kept.apStep (h : Kept G I) (hs : I s) (e : ApEvent cfg) (he : GrantsOnly G s e) :
    I (apStep s e).1 := by
  cases e with
  | auth r => exact h.mlmeRxAuth hs r
  | assoc r => exact h.handleAssoc hs r
  | disassoc longEnough sa =>
    dsimp only [Ap.apStep]
    split
    · exact h.mlmeRxDisassoc hs sa
    · exact hs
  | deauth longEnough sa =>
    dsimp only [Ap.apStep]
    split
    · exact h.mlmeRxDeauth hs sa
    · exact hs
  | setAuthorized addr authorized =>
    dsimp only [Ap.apStep]
    split
    · next i hi =>
      cases authorized with
      | false => exact h.withdraw hs i
      | true => exact h.grant hs (findStaByAddr_valid hi) (he i hi)
    · exact hs
  | disconnect addr =>
    dsimp only [Ap.apStep]
    split
    · next i _ => exact h.removeSilent hs i
    · exact hs
  | timer i hostApiActive inactive => exact h.apHandleTimer hs i hostApiActive inactive
  | rx sa kind pm up => exact h.rxFrame hs sa kind pm up
  | tx now f bAPFrame pollFlag => exact h.dataCouldBeSend hs now f bAPFrame pollFlag
  | pollResponse i => exact h.staPsDeliverPollResponse hs i
  | uapsd i => exact h.staPsDeliverUapsd hs i
  | cleanup now => exact h.staInfoCleanup hs now
  | drvRemove i => exact h.drvRemove hs i
  | free i => exact h.apStaInfoFree hs i

/-- What holds at the start and is kept holds in every state the access point reaches. -/
theorem Kept.run_of_meets (h : Kept G I) (start : I (initAp cfg)) (es : List (ApEvent cfg))
    (hes : Machine.Meets Ap.apStep (GrantsOnly G) (initAp cfg) es) :
    I (Machine.run Ap.apStep (initAp cfg) es).1 :=
  Machine.run_induction_of_meets (P := fun s _ _ => I s) start
    (fun _ _ _ e he hs => h.apStep hs e he) es hes

theorem grantsOnly_true (s : ApInfo cfg) (e : ApEvent cfg) : GrantsOnly (fun _ => True) s e := by
  cases e with
  | setAuthorized addr authorized =>
    cases authorized with
    | false => trivial
    | true => exact fun _ _ => trivial
  | _ => trivial

/-- An invariant that does not ask who is authorised holds in every state. -/
theorem Kept.run (h : Kept (fun _ => True) I) (start : I (initAp cfg)) (es : List (ApEvent cfg)) :
    I (Machine.run Ap.apStep (initAp cfg) es).1 :=
  Machine.run_induction (P := fun s _ _ => I s) start
    (fun s _ _ e hs => h.apStep hs e (grantsOnly_true s e)) es

end Fullmac.Ap
