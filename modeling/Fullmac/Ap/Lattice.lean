import Fullmac.Ap.PowerSave

/-!
# The flags of a station

A station is authenticated, then associated, then authorised, and each flag is set and cleared by
handlers of its own. Most of what holds of the flags is a fact about one slot of the table, whatever
the others do; for those `StationRules` lists what can happen to a slot, and `StationRules.kept`
says that this is all.

The main result is that the flags are nested, and that a slot without a station is blank.
-/

namespace Fullmac.Ap

variable {cfg : ApCfg}

/-! ## What can happen to a slot -/

/-- The property survives what can happen to one slot of the table, if the WPA state machine
authorises only stations that satisfy `G`. -/
structure StationRules (G p : Station cfg → Prop) : Prop where
  reset : p resetStation
  ctl : ∀ {st st' : Station cfg}, p st → st'.ctl = st.ctl → p st'
  note : ∀ {st st' : Station cfg}, p st → st.valid = true → st'.core = st.core → p st'
  setTimeout : ∀ {st}, p st → ∀ t, p { st with timeoutNext := t }
  setWsid : ∀ {st}, p st → ∀ w, p { st with wsidIdx := w }
  clearAssoc : ∀ {st}, p st → st.authorized = false → p { st with assoc := false }
  clearAuth : ∀ {st}, p st → st.authorized = false → p { st with auth := false, assoc := false }
  withdraw : ∀ {st}, p st → p { st with authorized := false }
  wake : ∀ {st}, p st → p { st with psSta := false }
  sleep : ∀ {st}, p st → st.valid = true → p { st with psSta := true }
  take : ∀ {st}, p st → st.valid = false → ∀ addr w,
    p { st with valid := true, wsidIdx := w, addr := addr }
  authenticate : ∀ {st}, p st → st.valid = true → p { st with auth := true }
  setAid : ∀ {st}, p st → st.valid = true → ∀ aid, p { st with aid := aid }
  setCounted : ∀ {st}, p st → st.valid = true → ∀ c, p { st with counted := c }
  associate : ∀ {st}, p st → st.valid = true → st.auth = true → p { st with assoc := true }
  authorize : ∀ {st}, p st → st.valid = true → G st ∨ st.assoc = true →
    p { st with authorized := true }

namespace StationRules

variable {G p : Station cfg → Prop} {s s' : ApInfo cfg} {i : StaIdx cfg}

/-- One slot changes. -/
theorem update (hs : ∀ j, p (s.sta j)) (hne : ∀ j, j ≠ i → s'.sta j = s.sta j)
    (hi : p (s'.sta i)) (j : StaIdx cfg) : p (s'.sta j) := by
  by_cases hj : j = i
  · subst hj
    exact hi
  · rw [hne j hj]
    exact hs j

theorem modSta (hs : ∀ j, p (s.sta j)) {f : Station cfg → Station cfg} (hf : p (f (s.sta i))) :
    ∀ j, p ((s.modSta i f).sta j) :=
  update hs (fun _ hj => modSta_sta_of_ne s f hj) (by rwa [modSta_sta_self])

theorem of_ctl (h : StationRules G p) (hs : ∀ j, p (s.sta j)) (hctl : s'.ctl = s.ctl)
    (j : StaIdx cfg) : p (s'.sta j) :=
  h.ctl (hs j) (congrFun (congrArg ApInfo.sta hctl) j)

theorem setPs (h : StationRules G p) (hs : ∀ j, p (s.sta j)) (b : Bool)
    (hb : b = true → (s.sta i).valid = true) (n : ℕ) (j : StaIdx cfg) :
    p ((s.ctl.setPs i b n).sta j) := by
  have hctl : ∀ j, p (s.ctl.sta j) := fun j => h.ctl (hs j) rfl
  refine modSta (s := { s.ctl with numStaPs := n }) hctl ?_ j
  cases b with
  | false => exact h.wake (hctl i)
  | true => exact h.sleep (hctl i) (hb rfl)

theorem drvRemove (h : StationRules G p) (hs : ∀ j, p (s.sta j)) (i j : StaIdx cfg) :
    p ((drvRemove s i).sta j) := by
  have hps : ∀ j, p ((if (s.sta i).psSta then s.ctl.setPs i false (dec8 s.numStaPs)
      else s.ctl).sta j) := by
    split
    · exact h.setPs hs false nofun _
    · exact fun j => h.ctl (hs j) rfl
  have hdetach : p ((drvDetach (if (s.sta i).psSta then s.ctl.setPs i false (dec8 s.numStaPs)
      else s.ctl) i).sta j) := by
    refine modSta (fun j => ?_) ?_ j
    · rw [apSocCmdStaOper_sta]
      exact hps j
    · rw [apSocCmdStaOper_sta]
      exact h.setWsid (hps i) _
  rw [← drvRemove_ctl] at hdetach
  exact h.ctl hdetach rfl

theorem keptByRemoval (h : StationRules G p) : KeptByRemoval fun s => ∀ j, p (s.sta j) where
  modSta hs hv hf := modSta hs (h.note (hs _) hv hf)
  setTimeout hs i t := modSta hs (h.setTimeout (hs i) t)
  setDrv hs _ := hs
  clearAssoc hs ha := modSta hs (h.clearAssoc (hs _) ha)
  clearAuth hs ha := modSta hs (h.clearAuth (hs _) ha)
  sendMgmtFrame hs da := h.of_ctl hs (sendMgmtFrame_ctl _ da)
  withdraw hs i := update hs (fun _ hj => apStaSetAuthorized_sta_of_ne _ false hj)
    (by rw [apStaSetAuthorized_sta_self]; exact h.withdraw (hs i))
  drvRemove hs i := h.drvRemove hs i
  apStaInfoFree {s} hs i j := by
    by_cases hj : j = i
    · subst hj
      cases hv : (s.sta j).valid with
      | false =>
        have hsame : apStaInfoFree s j = s := by simp [apStaInfoFree, hv]
        rw [hsame]
        exact hs j
      | true =>
        rw [apStaInfoFree_sta_self hv]
        exact h.reset
    · rw [apStaInfoFree_sta_of_ne s hj]
      exact hs j

theorem apStaInfoAdd (h : StationRules G p) (hs : ∀ j, p (s.sta j)) (addr : EtherAddr) :
    ∀ j, p ((apStaInfoAdd s addr).2.sta j) := by
  have hevict := h.keptByRemoval.evictSilent hs
  rcases apStaInfoAdd_cases s addr with ⟨i, -, he⟩ | ⟨-, -, he⟩ | ⟨i, -, hi, he⟩ <;> rw [he]
  · exact hs
  · exact hevict
  · refine update hevict (fun _ hj => takeSlot_sta_of_ne _ addr hj) ?_
    rw [takeSlot_sta_self]
    exact h.take (hevict i) (getNewSta_valid hi) addr _

theorem tryAssoc (h : StationRules G p) (hs : ∀ j, p (s.sta j)) (hv : (s.sta i).valid = true)
    (ha : (s.sta i).auth = true) (r : AssocReq) : ∀ j, p ((tryAssoc s i r).2.sta j) := by
  have hcore := checkAssocIes_core (s.sta i) r.elems
  have hchecked := modSta (i := i) (f := fun _ => (checkAssocIes (s.sta i) r.elems).2) hs
    (h.note (hs i) hv hcore)
  rcases tryAssoc_cases s i r with ⟨-, he | he⟩ | ⟨s', hget, he⟩ <;> rw [he]
  · exact hs
  · exact hchecked
  · rw [apSocCmdStaOper_sta]
    -- from the AID on: the station is there and authenticated, and in the end associated
    refine (recordAssoc_rule
      (P := fun s => (∀ j, p (s.sta j)) ∧ (s.sta i).valid = true ∧ (s.sta i).auth = true)
      (Q := fun s => (∀ j, p (s.sta j)) ∧ (s.sta i).valid = true ∧ (s.sta i).assoc = true)
      ?_ ?_ ?_ ?_ ?_ ?_ r).1
    · rintro s f ⟨hs, hv, ha⟩ hc -
      refine ⟨modSta hs (h.note (hs i) hv hc), ?_⟩
      rw [modSta_sta_self]
      exact ⟨(congrArg Station.valid hc).trans hv, (congrArg Station.auth hc).trans ha⟩
    · rintro s ⟨hs, hv, ha⟩ c
      refine ⟨update hs (fun j hj => setCounted_sta_of_ne s c hj) ?_, ?_⟩ <;>
        rw [setCounted_sta_self]
      · exact h.setCounted (hs i) hv _
      · exact ⟨hv, ha⟩
    · rintro s ⟨hs, hv, ha⟩
      refine ⟨modSta hs (h.associate (hs i) hv ha), ?_⟩
      rw [modSta_sta_self]
      exact ⟨hv, rfl⟩
    · rintro s ⟨hs, hv, ha⟩
      refine ⟨update hs (fun j hj => apStaSetAuthorized_sta_of_ne s true hj) ?_, ?_⟩ <;>
        rw [apStaSetAuthorized_sta_self]
      · exact h.authorize (hs i) hv (.inr ha)
      · exact ⟨hv, ha⟩
    · rintro s ⟨hs, hv, ha⟩
      refine ⟨modSta hs (h.setTimeout (hs i) _), ?_⟩
      rw [modSta_sta_self]
      exact ⟨hv, ha⟩
    · obtain ⟨hne, n, hi⟩ := hostapdGetAid_sta hget
      rw [modSta_sta_self] at hi
      have hv' : (checkAssocIes (s.sta i) r.elems).2.valid = true :=
        (congrArg Station.valid hcore).trans hv
      refine ⟨update hchecked hne ?_, ?_⟩ <;> rw [hi]
      · exact h.setAid (h.note (hs i) hv hcore) hv' n
      · exact ⟨hv', (congrArg Station.auth hcore).trans ha⟩

theorem kept (h : StationRules G p) : Kept G fun s => ∀ j, p (s.sta j) where
  toKeptByRemoval := h.keptByRemoval
  grant hs hv hg := update hs (fun _ hj => apStaSetAuthorized_sta_of_ne _ true hj)
    (by rw [apStaSetAuthorized_sta_self]; exact h.authorize (hs _) hv (.inl hg))
  apStaInfoAdd hs addr := h.apStaInfoAdd hs addr
  authenticate {s i} hs hv r := by
    refine modSta hs ?_
    rcases authenticate_core (s.sta i) r with hc | hc
    · exact h.note (hs i) hv hc
    · exact @StationRules.note cfg G p h { s.sta i with auth := true } _ (h.authenticate (hs i) hv)
        hv hc
  tryAssoc hs hv ha r := h.tryAssoc hs hv ha r
  apStaPsStart {s i} hs _ hv j := by
    have hps := h.setPs hs true (fun _ => hv) (inc8 s.numStaPs) j
    rw [← apStaPsStart_ctl] at hps
    exact h.ctl hps rfl
  apStaPsEnd {s i} hs _ := by
    intro j
    have hps : p ((apStaPsEnd s i).ctl.sta j) := by
      rw [apStaPsEnd_ctl]
      split
      · exact h.setPs hs false nofun _ j
      · exact h.ctl (hs j) rfl
    exact h.ctl hps rfl
  recalcTimGenBeacon hs i := h.of_ctl hs (recalcTimGenBeacon_ctl _ i)
  staPsDeliverPollResponse hs i := h.of_ctl hs (staPsDeliverPollResponse_ctl _ i)
  staPsDeliverUapsd hs i := h.of_ctl hs (staPsDeliverUapsd_ctl _ i)
  dataCouldBeSend hs now f bAPFrame pollFlag :=
    h.of_ctl hs (dataCouldBeSend_ctl now _ f bAPFrame pollFlag)
  staInfoCleanup hs now := h.of_ctl hs (staInfoCleanup_ctl now _)

end StationRules

/-! ## The lattice -/

/-- No flag is set but perhaps `sp`, and the station has not been asked anything. -/
def Station.Blank (st : Station cfg) : Prop :=
  st.auth = false ∧ st.assoc = false ∧ st.authorized = false ∧ st.pendingPoll = false ∧
    st.shortPreamble = false ∧ st.wmm = false ∧ st.ht = false ∧ st.nonerp = false ∧
    st.psSta = false ∧ st.arpRetryCount = 0

/-- Who is associated is authenticated, who is authenticated is there, who is not there is blank. -/
def Station.Nested (st : Station cfg) : Prop :=
  (st.assoc = true → st.auth = true) ∧ (st.auth = true → st.valid = true) ∧
    (st.valid = false → st.Blank)

/-- Of a station that is there, only the first two matter. -/
theorem nested_of_valid {st : Station cfg} (hv : st.valid = true)
    (h : st.assoc = true → st.auth = true) : st.Nested :=
  ⟨h, fun _ => hv, fun hv' => absurd (hv.symm.trans hv') (by simp)⟩

theorem nested_rules : StationRules (fun _ => True) (@Station.Nested cfg) where
  reset := ⟨nofun, nofun, fun _ => ⟨rfl, rfl, rfl, rfl, rfl, rfl, rfl, rfl, rfl, rfl⟩⟩
  ctl {st st'} h hc := by
    have hctl : st.ctl.Nested := h
    rw [← hc] at hctl
    exact hctl
  note {st st'} h hv hc := by
    have hcore : st.core.assoc = true → st.core.auth = true := h.1
    rw [← hc] at hcore
    exact nested_of_valid ((congrArg Station.valid hc).trans hv) hcore
  setTimeout h _ := h
  setWsid h _ := h
  clearAssoc h _ := by
    refine ⟨nofun, h.2.1, fun hv => ?_⟩
    obtain ⟨h₁, -, h₃⟩ := h.2.2 hv
    exact ⟨h₁, rfl, h₃⟩
  clearAuth h _ := by
    refine ⟨nofun, nofun, fun hv => ?_⟩
    obtain ⟨-, -, h₃⟩ := h.2.2 hv
    exact ⟨rfl, rfl, h₃⟩
  withdraw h := by
    refine ⟨h.1, h.2.1, fun hv => ?_⟩
    obtain ⟨h₁, h₂, -, h₄⟩ := h.2.2 hv
    exact ⟨h₁, h₂, rfl, h₄⟩
  wake h := by
    refine ⟨h.1, h.2.1, fun hv => ?_⟩
    obtain ⟨h₁, h₂, h₃, h₄, h₅, h₆, h₇, h₈, -, harp⟩ := h.2.2 hv
    exact ⟨h₁, h₂, h₃, h₄, h₅, h₆, h₇, h₈, rfl, harp⟩
  sleep h hv := nested_of_valid hv h.1
  take h _ _ _ := nested_of_valid rfl h.1
  authenticate h hv := nested_of_valid hv fun _ => rfl
  setAid h _ _ := h
  setCounted h _ _ := h
  associate h hv ha := nested_of_valid hv fun _ => ha
  authorize h hv _ := nested_of_valid hv h.1

/-- Who is authorised is associated, as long as the WPA state machine sees to it. -/
theorem authorized_rules : StationRules (fun st => st.assoc = true)
    fun st : Station cfg => st.authorized = true → st.assoc = true where
  reset := nofun
  ctl {st st'} h hc := by
    have hctl : st.ctl.authorized = true → st.ctl.assoc = true := h
    rw [← hc] at hctl
    exact hctl
  note {st st'} h _ hc := by
    have hcore : st.core.authorized = true → st.core.assoc = true := h
    rw [← hc] at hcore
    exact hcore
  setTimeout h _ := h
  setWsid h _ := h
  clearAssoc _ ha h := absurd (ha.symm.trans h) (by simp)
  clearAuth _ ha h := absurd (ha.symm.trans h) (by simp)
  withdraw _ := nofun
  wake h := h
  sleep h _ := h
  take h _ _ _ := h
  authenticate h _ := h
  setAid h _ _ := h
  setCounted h _ _ := h
  associate _ _ _ _ := rfl
  authorize _ _ hg _ := hg.elim id id

/-! ## Service periods -/

section ServicePeriod

variable {s : ApInfo cfg}

/-- No station is in a service period. -/
def NoneServed (s : ApInfo cfg) : Prop := ∀ j, (s.sta j).sp = false

/-- Moving frames does not touch service periods. -/
theorem sp_keptByQueues (K : StaIdx cfg → Prop) :
    KeptByQueues (fun _ => True) fun s : ApInfo cfg => ∀ j, K j → (s.sta j).sp = false where
  modSta {s i f} hs _ hf j hj := by
    by_cases hji : j = i
    · subst hji
      rw [modSta_sta_self]
      exact (congrArg Station.sp hf).trans (hs j hj)
    · rw [modSta_sta_of_ne s f hji]
      exact hs j hj
  setTxDesp hs _ := hs
  setTotal hs _ := hs
  send {s} hs f bAPFrame pollFlag := by
    obtain ⟨u, b, he⟩ := callTxHandlers_neverQueued_cases s f bAPFrame pollFlag
    change ∀ j, K j → ((callTxHandlers neverQueued s f bAPFrame pollFlag).2.sta j).sp = false
    rw [he]
    exact hs

/-- A service period ends where it began. -/
theorem NoneServed.deliver (h : NoneServed s) (i : StaIdx cfg) (nFrames ignored : ℕ)
    (reason : ReleaseType) : NoneServed (staPsDeliverResponse s i nFrames ignored reason) := by
  intro j
  by_cases hj : j = i
  · subst hj
    unfold staPsDeliverResponse
    exact congrArg Station.sp (modSta_sta_self _ _ _)
  · refine (sp_keptByQueues fun j => j ≠ i).staPsDeliverResponse (i := i) (fun hs sp j hj => ?_)
      (fun hs => ?_) (fun j _ => h j) trivial nFrames ignored reason j hj
    · rw [modSta_sta_of_ne _ _ hj]
      exact hs j hj
    · rw [staInfoRecalcTim_sta]
      exact hs

theorem noneServed_keptByTx : KeptByTx (@NoneServed cfg) where
  modSta hs _ hf j := (sp_keptByQueues fun _ => True).modSta (fun j _ => hs j) trivial hf j trivial
  setTxDesp hs _ := hs
  setTotal hs _ := hs
  send hs f b p j := (sp_keptByQueues fun _ => True).send (fun j _ => hs j) f b p j trivial
  recalcTim hs i := by
    unfold NoneServed
    rw [staInfoRecalcTim_sta]
    exact hs
  deliver hs i nFrames ignored reason := hs.deliver i nFrames ignored reason
  setAssert hs := hs

theorem NoneServed.update {s' : ApInfo cfg} (h : NoneServed s) {i : StaIdx cfg}
    (hne : ∀ j, j ≠ i → s'.sta j = s.sta j) (hi : (s'.sta i).sp = false) : NoneServed s' :=
  StationRules.update (p := fun st => st.sp = false) h hne hi

theorem NoneServed.modSta (h : NoneServed s) {i : StaIdx cfg} {f : Station cfg → Station cfg}
    (hf : (f (s.sta i)).sp = false) : NoneServed (s.modSta i f) :=
  StationRules.modSta (p := fun st => st.sp = false) h hf

theorem NoneServed.recalcTimGenBeacon (h : NoneServed s) (i : StaIdx cfg) :
    NoneServed (recalcTimGenBeacon s i) :=
  noneServed_keptByTx.recalcTim h i

theorem NoneServed.drvRemove (h : NoneServed s) (i : StaIdx cfg) : NoneServed (drvRemove s i) := by
  have hps : NoneServed (drvRemovePs s i) := by
    unfold drvRemovePs
    split
    · extract_lets s₁ s₂
      have h₁ : NoneServed s₁ := h.modSta (h i)
      have hnum : NoneServed { s₁ with numStaPs := dec8 s₁.numStaPs } := h₁
      have h₂ : NoneServed s₂ := noneServed_keptByTx.purgeStaPsBuffers hnum trivial
      clear_value s₂
      exact (h₂.modSta (h₂ i)).recalcTimGenBeacon i
    · exact h
  have hoper : NoneServed (apSocCmdStaOper (drvRemovePs s i) i false) := by
    unfold NoneServed
    rwa [apSocCmdStaOper_sta]
  rw [Ap.drvRemove, drvDetach]
  exact hoper.modSta (hoper i)

theorem noneServed_keptByRemoval : KeptByRemoval (@NoneServed cfg) where
  modSta {s i _} h _ hf := h.modSta ((congrArg Station.sp hf).trans (h i))
  setTimeout h i _ := h.modSta (h i)
  setDrv h _ := h
  clearAssoc {_ i} h _ := h.modSta (h i)
  clearAuth {_ i} h _ := h.modSta (h i)
  sendMgmtFrame h da := noneServed_keptByTx.send h _ _ _
  withdraw {s} h i := h.update (fun _ hj => apStaSetAuthorized_sta_of_ne s false hj)
    (by rw [apStaSetAuthorized_sta_self]; exact h i)
  drvRemove h i := h.drvRemove i
  apStaInfoFree {s} h i := by
    cases hv : (s.sta i).valid with
    | false =>
      have hsame : apStaInfoFree s i = s := by simp [apStaInfoFree, hv]
      rwa [hsame]
    | true =>
      exact h.update (fun _ hj => apStaInfoFree_sta_of_ne s hj)
        (by rw [apStaInfoFree_sta_self hv]; rfl)

theorem NoneServed.apStaInfoAdd (h : NoneServed s) (addr : EtherAddr) :
    NoneServed (apStaInfoAdd s addr).2 := by
  have hevict := noneServed_keptByRemoval.evictSilent h
  rcases apStaInfoAdd_cases s addr with ⟨i, -, he⟩ | ⟨-, -, he⟩ | ⟨i, -, hi, he⟩ <;> rw [he]
  · exact h
  · exact hevict
  · refine hevict.update (fun _ hj => takeSlot_sta_of_ne _ addr hj) ?_
    rw [takeSlot_sta_self]
    exact hevict i

theorem NoneServed.tryAssoc (h : NoneServed s) (i : StaIdx cfg) (r : AssocReq) :
    NoneServed (tryAssoc s i r).2 := by
  have hsp := (congrArg Station.sp (checkAssocIes_core (s.sta i) r.elems)).trans (h i)
  have hchecked : NoneServed (s.modSta i fun _ => (checkAssocIes (s.sta i) r.elems).2) :=
    h.modSta hsp
  rcases tryAssoc_cases s i r with ⟨-, he | he⟩ | ⟨s', hget, he⟩ <;> rw [he]
  · exact h
  · exact hchecked
  · obtain ⟨hne, n, hi⟩ := hostapdGetAid_sta hget
    have haid : NoneServed s' := hchecked.update hne (by rw [hi, modSta_sta_self]; exact hsp)
    unfold NoneServed
    rw [apSocCmdStaOper_sta]
    exact recordAssoc_rule (P := NoneServed) (Q := NoneServed)
      (fun hs hc _ => hs.modSta ((congrArg Station.sp hc).trans (hs i)))
      (fun {s} hs c => hs.update (fun _ hj => setCounted_sta_of_ne s c hj)
        (by rw [setCounted_sta_self]; exact hs i))
      (fun hs => hs.modSta (hs i))
      (fun {s} hs => hs.update (fun _ hj => apStaSetAuthorized_sta_of_ne s true hj)
        (by rw [apStaSetAuthorized_sta_self]; exact hs i))
      (fun hs => hs.modSta (hs i)) haid r

theorem NoneServed.apStaPsEnd (h : NoneServed s) (i : StaIdx cfg) :
    NoneServed (apStaPsEnd s i) := by
  unfold Ap.apStaPsEnd
  split
  · unfold staPsDeliverWakeup
    extract_lets r s₁ s₂
    have hr : NoneServed r.1 :=
      List.foldlRecOn (motive := fun r : ApInfo cfg × ℕ => NoneServed r.1) _ _ h
        fun _ hs ac _ => noneServed_keptByTx.wakeupAc trivial ac _ hs
    clear_value r
    have h₁ : NoneServed s₁ := hr.modSta rfl
    have h₂ : NoneServed (s₁.subTotal r.2) := noneServed_keptByTx.subTotal h₁ _
    exact (h₂.modSta (h₂ i)).recalcTimGenBeacon i
  · exact h

/-- Between two events no station is in a service period. -/
theorem noneServed_kept : Kept (fun _ => True) (@NoneServed cfg) where
  toKeptByRemoval := noneServed_keptByRemoval
  grant {s i} h _ _ := h.update (fun _ hj => apStaSetAuthorized_sta_of_ne s true hj)
    (by rw [apStaSetAuthorized_sta_self]; exact h i)
  apStaInfoAdd h addr := h.apStaInfoAdd addr
  authenticate {s i} h _ r := by
    refine h.modSta ?_
    rcases authenticate_core (s.sta i) r with hc | hc
    · exact (congrArg Station.sp hc).trans (h i)
    · exact (congrArg Station.sp hc).trans (h i)
  tryAssoc h _ _ r := h.tryAssoc _ r
  apStaPsStart {s i} h _ _ :=
    NoneServed.modSta (s := { s with numStaPs := inc8 s.numStaPs }) h (h i)
  apStaPsEnd h _ := h.apStaPsEnd _
  recalcTimGenBeacon h i := h.recalcTimGenBeacon i
  staPsDeliverPollResponse h i := h.deliver i _ _ _
  staPsDeliverUapsd h i := noneServed_keptByTx.staPsDeliverUapsd h i
  dataCouldBeSend h now f bAPFrame pollFlag :=
    noneServed_keptByTx.callTxHandlers h now f bAPFrame pollFlag
  staInfoCleanup h now := noneServed_keptByTx.staInfoCleanup h now

end ServicePeriod

/-! ## Runs -/

/-- What holds of the flags of every slot. -/
structure FlagsNested (st : Station cfg) : Prop where
  assoc_of_authorized : st.authorized = true → st.assoc = true
  auth_of_assoc : st.assoc = true → st.auth = true
  valid_of_auth : st.auth = true → st.valid = true
  /-- A slot without a station has no flag, -/
  no_flag : st.valid = false → st.Blank ∧ st.sp = false
  /-- no frame, -/
  no_frame : st.valid = false → ∀ ac, st.psTxBuf ac = []
  /-- and no AID. -/
  no_aid : st.valid = false → st.aid = 0

/-- In every state the access point reaches, whatever requests, frames and timers come in whatever
order, the flags of every slot are nested and a slot without a station is blank, as long as the key
handshake authorises only associated stations. -/
theorem apRun_flagsNested (cfg : ApCfg) (es : List (ApEvent cfg))
    (hes : Machine.Meets apStep (GrantsOnly fun st => st.assoc = true) (initAp cfg) es)
    (i : StaIdx cfg) : FlagsNested ((Machine.run apStep (initAp cfg) es).1.sta i) := by
  have hnested := nested_rules.kept.run (fun _ => nested_rules.setWsid nested_rules.reset _) es i
  have hauthorized := authorized_rules.kept.run_of_meets (fun _ => nofun) es hes i
  have hserved := noneServed_kept.run (fun _ => rfl) es i
  have hps := psInv_kept.run psInv_initAp es
  have htable := tableInv_kept.run tableInv_initAp es
  refine ⟨hauthorized, hnested.1, hnested.2.1, fun hv => ⟨hnested.2.2 hv, hserved⟩,
    fun hv ac => ?_, fun hv => (htable.blank i hv).2.1⟩
  by_contra hne
  exact absurd (hv.symm.trans (hps.valid i (hps.ledger.allowed i ac hne))) (by simp)

/-- An open authentication request. -/
def authEvent (cfg : ApCfg) (sa : EtherAddr) : ApEvent cfg :=
  .auth
    { longEnough := true, sa, authAlg := 0, transaction := 1, isWep := false, challenge := none
      tkipCountermeasures := false, newChallenge := none }

/-- An association request without WMM. -/
def assocEvent (cfg : ApCfg) (sa : EtherAddr) : ApEvent cfg :=
  .assoc
    { longEnough := true, sa, reassoc := false, capabInfo := 0, listenInterval := 10
      tkipCountermeasures := false
      elems := some { ssid := some cfg.ssid, wmm := none, suppRates := some [2]
                      extSuppRates := none, htCapab := none, rsn := none } }

/-- A network with a pre-shared key. -/
def pskAp : ApCfg := { openAp with keyMgmtPsk := true }

/-- A station joins and finishes the key handshake. -/
theorem joined_flagsNested :
    let es := [authEvent pskAp (Vector.replicate 6 4), assocEvent pskAp (Vector.replicate 6 4),
      .setAuthorized (Vector.replicate 6 4) true]
    ((Machine.run apStep (initAp pskAp) es).1.sta ⟨0, pskAp.maxAid_pos⟩).authorized = true ∧
      FlagsNested ((Machine.run apStep (initAp pskAp) es).1.sta ⟨0, pskAp.maxAid_pos⟩) := by
  refine ⟨by decide +kernel, apRun_flagsNested pskAp _ ?_ _⟩
  refine ⟨trivial, trivial, ?_, trivial⟩
  unfold GrantsOnly
  decide +kernel

end Fullmac.Ap
