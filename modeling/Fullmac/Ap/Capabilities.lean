import Fullmac.Ap.TimEvents

/-!
# The capabilities that are counted

A counted bit of a station says that the station is one of those a counter counts. `handle_assoc`
sets a bit when the station lacks the capability that the counter is about, and only
`APStaInfo_free` clears it. A station may associate again without leaving, with other capabilities,
and its bits still tell of the first time.

`Profile` is what all this is about in a station. Every event leaves the profiles as they are or
blanks some (`Thins`), but for two: a request that is accepted, and the stage of a timeout in which
the station is disassociated and not yet freed.
-/

namespace Fullmac.Ap

open Table

variable {cfg : ApCfg} {s : ApInfo cfg} {i : StaIdx cfg}

/-! ## Profiles -/

/-- The station lacks what the counter is about: a rate of ERP, short slot time, short preamble,
greenfield, HT, 40 MHz. -/
def Station.lacks (st : Station cfg) : Counted → Bool
  | .nonErp => st.nonerp
  | .noShortSlotTime => !st.capability.testBit 10
  | .noShortPreamble => !st.capability.testBit 5
  | .noHtGf => st.ht && !st.htCapab.testBit 4
  | .noHt => !st.ht
  | .ht20mhz => st.ht && !st.htCapab.testBit 1

/-- What counting is about in a station. -/
structure Profile where
  assoc : Bool
  counted : Counted → Bool
  lacks : Counted → Bool

def Station.profile (st : Station cfg) : Profile where
  assoc := st.assoc
  counted := st.counted
  lacks := st.lacks

def ApInfo.profiles (s : ApInfo cfg) : StaIdx cfg → Profile := fun j => (s.sta j).profile

/-- Counted is what the station, if it is associated, lacks. -/
def Profile.Current (p : Profile) : Prop := ∀ c, p.counted c = (p.assoc && p.lacks c)

/-- What an associated station lacks is counted. -/
def Profile.Covered (p : Profile) : Prop :=
  ∀ c, p.assoc = true → p.lacks c = true → p.counted c = true

/-- Nothing is counted of a station that is gone. -/
def Profile.Gone (p : Profile) : Prop := p.assoc = false ∧ ∀ c, p.counted c = false

theorem Profile.Gone.current {p : Profile} (h : p.Gone) : p.Current := fun c => by
  rw [h.1, h.2 c, Bool.false_and]

theorem Profile.Gone.covered {p : Profile} (h : p.Gone) : p.Covered := fun _ hassoc =>
  absurd (h.1.symm.trans hassoc) Bool.false_ne_true

/-- Every profile is as it was, or the station is gone. -/
def Thins (v v' : StaIdx cfg → Profile) : Prop := ∀ j, v' j = v j ∨ (v' j).Gone

theorem Thins.of_eq {v v' : StaIdx cfg → Profile} (h : v' = v) : Thins v v' := fun j =>
  .inl (congrFun h j)

theorem Thins.trans {v v' v'' : StaIdx cfg → Profile} (h : Thins v v') (h' : Thins v' v'') :
    Thins v v'' := fun j => by
  rcases h' j with he | hgone
  · rw [he]
    exact h j
  · exact .inr hgone

/-- What holds of a station that is gone, and held of all before, holds of all. -/
theorem Thins.forall {P : Profile → Prop} {v v' : StaIdx cfg → Profile} (h : Thins v v')
    (hgone : ∀ p : Profile, p.Gone → P p) (hv : ∀ j, P (v j)) (j : StaIdx cfg) : P (v' j) := by
  rcases h j with he | hj
  · rw [he]
    exact hv j
  · exact hgone _ hj

/-- A change of one profile. -/
theorem forall_update_iff {P : Profile → Prop} {v : StaIdx cfg → Profile} (hv : ∀ j, P (v j))
    (i : StaIdx cfg) (p : Profile) : (∀ j, P (Function.update v i p j)) ↔ P p := by
  refine ⟨fun h => ?_, fun hp j => ?_⟩
  · have hi := h i
    rwa [Function.update_self] at hi
  · by_cases hj : j = i
    · subst hj
      rwa [Function.update_self]
    · rw [Function.update_of_ne hj]
      exact hv j

/-! ## What the operations do to them -/

theorem profiles_of_sta {s' : ApInfo cfg} (h : s'.sta = s.sta) : s'.profiles = s.profiles :=
  funext fun j => congrArg Station.profile (congrFun h j)

theorem profiles_of_ctl {s' : ApInfo cfg} (h : s'.ctl = s.ctl) : s'.profiles = s.profiles :=
  have hctl : s'.ctl.profiles = s.ctl.profiles := congrArg ApInfo.profiles h
  hctl

theorem profiles_modSta (s : ApInfo cfg) (i : StaIdx cfg) (f : Station cfg → Station cfg) :
    (s.modSta i f).profiles = Function.update s.profiles i (f (s.sta i)).profile := by
  funext j
  by_cases hj : j = i
  · subst hj
    simp [ApInfo.profiles]
  · simp [ApInfo.profiles, modSta_sta_of_ne s f hj, Function.update_of_ne hj]

theorem profiles_modSta_of_eq {f : Station cfg → Station cfg}
    (h : (f (s.sta i)).profile = (s.sta i).profile) : (s.modSta i f).profiles = s.profiles := by
  rw [profiles_modSta, h]
  exact Function.update_eq_self i s.profiles

@[simp] theorem sendMgmtFrame_profiles (s : ApInfo cfg) (da : EtherAddr) :
    (sendMgmtFrame s da).profiles = s.profiles :=
  profiles_of_sta (sendMgmtFrame_sta s da)

@[simp] theorem apSocCmdStaOper_profiles (s : ApInfo cfg) (i : StaIdx cfg) (add : Bool) :
    (apSocCmdStaOper s i add).profiles = s.profiles :=
  profiles_of_sta (apSocCmdStaOper_sta s i add)

theorem setPs_profiles (s : ApInfo cfg) (i : StaIdx cfg) (b : Bool) (n : ℕ) :
    (s.setPs i b n).profiles = s.profiles := profiles_modSta_of_eq rfl

@[simp] theorem drvRemove_profiles (s : ApInfo cfg) (i : StaIdx cfg) :
    (drvRemove s i).profiles = s.profiles := by
  have hdetach : ∀ s : ApInfo cfg, (drvDetach s i).profiles = s.profiles := fun s =>
    (profiles_modSta_of_eq rfl).trans (apSocCmdStaOper_profiles s i false)
  change (drvRemove s i).ctl.profiles = s.ctl.profiles
  rw [drvRemove_ctl, hdetach]
  split
  · exact setPs_profiles _ _ _ _
  · rfl

@[simp] theorem apStaSetAuthorized_profiles (s : ApInfo cfg) (i : StaIdx cfg) (b : Bool) :
    (apStaSetAuthorized s i b).profiles = s.profiles := by
  unfold apStaSetAuthorized
  split_ifs
  · rfl
  · exact profiles_modSta_of_eq rfl
  · exact profiles_modSta_of_eq rfl

/-- A station is disassociated. -/
def Profile.disassoc (p : Profile) : Profile := { p with assoc := false }

theorem changeStaDisassocToDeauth_profiles (s : ApInfo cfg) (i : StaIdx cfg) (timerCreat : Bool) :
    (changeStaDisassocToDeauth s i timerCreat).profiles
      = Function.update s.profiles i (s.profiles i).disassoc := by
  unfold changeStaDisassocToDeauth
  extract_lets s₁ s₂
  have h₁ : s₁.profiles = s.profiles := apStaSetAuthorized_profiles s i false
  have h₂ : s₂.profiles = Function.update s.profiles i (s.profiles i).disassoc := by
    dsimp only [s₂]
    rw [drvRemove_profiles, profiles_modSta, h₁]
    have hi : (s₁.sta i).profile = s.profiles i := congrFun h₁ i
    rw [← hi]
    rfl
  split
  · rw [← h₂]
    exact profiles_modSta_of_eq (f := fun st => { st with timeoutNext := .deauth }) rfl
  · exact h₂

theorem resetStation_gone : (resetStation : Station cfg).profile.Gone := ⟨rfl, fun _ => rfl⟩

theorem apStaInfoFree_gone (hv : (s.sta i).valid = true) :
    ((apStaInfoFree s i).profiles i).Gone := by
  have hself : (apStaInfoFree s i).profiles i = (resetStation : Station cfg).profile :=
    congrArg Station.profile (apStaInfoFree_sta_self hv)
  rw [hself]
  exact resetStation_gone

theorem apStaInfoFree_profiles_of_ne (s : ApInfo cfg) {j : StaIdx cfg} (h : j ≠ i) :
    (apStaInfoFree s i).profiles j = s.profiles j :=
  congrArg Station.profile (apStaInfoFree_sta_of_ne s h)

/-- There is nothing to free in a slot without a station. -/
theorem apStaInfoFree_of_not_valid (hv : (s.sta i).valid = false) : apStaInfoFree s i = s := by
  unfold apStaInfoFree
  rw [hv, Bool.not_false, if_pos rfl]

theorem apStaInfoFree_thins (s : ApInfo cfg) (i : StaIdx cfg) :
    Thins s.profiles (apStaInfoFree s i).profiles := by
  intro j
  by_cases hj : j = i
  · subst hj
    cases hv : (s.sta j).valid with
    | true => exact .inr (apStaInfoFree_gone hv)
    | false =>
      rw [apStaInfoFree_of_not_valid hv]
      exact .inl rfl
  · exact .inl (apStaInfoFree_profiles_of_ne s hj)

/-- Freeing a station that was changed before. -/
theorem apStaInfoFree_thins_of_update {s₀ : ApInfo cfg} {p : Profile} (hv : (s.sta i).valid = true)
    (hs : s.profiles = Function.update s₀.profiles i p) :
    Thins s₀.profiles (apStaInfoFree s i).profiles := by
  intro j
  by_cases hj : j = i
  · subst hj
    exact .inr (apStaInfoFree_gone hv)
  · rw [apStaInfoFree_profiles_of_ne s hj, hs, Function.update_of_ne hj]
    exact .inl rfl

theorem changeStaDisassocToDeauth_valid (s : ApInfo cfg) (i : StaIdx cfg) (timerCreat : Bool) :
    ((changeStaDisassocToDeauth s i timerCreat).sta i).valid = (s.sta i).valid := by
  have hdetach : ((s.dv.detach i).sta i).valid = (s.sta i).valid := by
    simp [DrvView.detach, DrvView.setSta]
    rfl
  rw [← hdetach]
  rcases changeStaDisassocToDeauth_dv s i timerCreat with h | ⟨-, h⟩
  · exact congrArg (fun v : DrvView cfg => (v.sta i).valid) h
  · exact congrArg (fun v : DrvView cfg => (v.sta i).valid) h

/-- A slot without a station has nothing counted, and a station that is removed leaves none. -/
theorem removeSilent_thins (h : TableInv s.table) (i : StaIdx cfg) :
    Thins s.profiles (removeSilent s i).profiles := by
  unfold removeSilent
  extract_lets s₁ s₂
  have hs₂ : s₂.sta = s₁.sta := rfl
  have hp : (sendMgmtFrame s₂ (s₂.sta i).addr).profiles
      = Function.update s.profiles i (s.profiles i).disassoc := by
    rw [sendMgmtFrame_profiles, profiles_of_sta hs₂, ← changeStaDisassocToDeauth_profiles s i false]
    exact profiles_modSta_of_eq rfl
  have hvalid : ((sendMgmtFrame s₂ (s₂.sta i).addr).sta i).valid = (s.sta i).valid := by
    rw [sendMgmtFrame_sta, hs₂, ← changeStaDisassocToDeauth_valid s i false]
    exact modSta_apply_of_eq Station.valid rfl i
  cases hv : (s.sta i).valid with
  | true => exact apStaInfoFree_thins_of_update (hvalid.trans hv) hp
  | false =>
    rw [apStaInfoFree_of_not_valid (hvalid.trans hv), hp]
    intro j
    by_cases hj : j = i
    · subst hj
      rw [Function.update_self]
      exact .inr ⟨rfl, (h.blank j hv).2.2⟩
    · exact .inl (Function.update_of_ne hj _ _)

theorem evictSilent_thins (h : TableInv s.table) : Thins s.profiles (evictSilent s).profiles := by
  unfold evictSilent
  extract_lets first s₁
  have h₁ : TableInv s₁.table ∧ Thins s.profiles s₁.profiles := by
    dsimp only [s₁]
    split
    · exact ⟨tableInv_keptByRemoval.removeSilent h first, removeSilent_thins h first⟩
    · exact ⟨h, .of_eq rfl⟩
  split
  · split
    · next i _ => exact h₁.2.trans (removeSilent_thins h₁.1 i)
    · exact h₁.2
  · exact h₁.2

theorem takeSlot_profiles (s : ApInfo cfg) (i : StaIdx cfg) (addr : EtherAddr) :
    (takeSlot s i addr).profiles = s.profiles := by
  unfold takeSlot
  exact profiles_modSta_of_eq rfl

theorem apStaInfoAdd_thins (h : TableInv s.table) (addr : EtherAddr) :
    Thins s.profiles (apStaInfoAdd s addr).2.profiles := by
  rcases apStaInfoAdd_cases s addr with ⟨i, -, he⟩ | ⟨-, -, he⟩ | ⟨i, -, -, he⟩ <;> rw [he]
  · exact .of_eq rfl
  · exact evictSilent_thins h
  · rw [takeSlot_profiles]
    exact evictSilent_thins h

theorem authenticate_profile (st : Station cfg) (r : AuthReq) :
    (authenticate st r).2.profile = st.profile := by
  unfold authenticate authSharedKey
  split_ifs
  · rfl
  · split <;> rfl
  · rfl
  · rfl
  · rfl

/-! ## Events -/

theorem mlmeRxAuth_thins (h : TableInv s.table) (r : AuthReq) :
    Thins s.profiles (mlmeRxAuth s r).1.profiles := by
  unfold mlmeRxAuth
  split_ifs
  · exact .of_eq rfl
  · exact .of_eq (sendMgmtFrame_profiles s r.sa)
  · have hadd := apStaInfoAdd_thins h r.sa
    split
    · next s₁ he =>
      rw [he] at hadd
      rw [sendMgmtFrame_profiles]
      exact hadd
    · next i s₁ he =>
      rw [he] at hadd
      extract_lets a s₂ s₃
      have h₂ : s₂.profiles = s₁.profiles := profiles_modSta_of_eq (authenticate_profile _ r)
      have h₃ : Thins s₂.profiles s₃.profiles := by
        dsimp only [s₃]
        split
        · exact .of_eq rfl
        · exact apStaInfoFree_thins s₂ i
      rw [sendMgmtFrame_profiles]
      rw [h₂] at h₃
      exact hadd.trans h₃

theorem mlmeRxDisassoc_thins (s : ApInfo cfg) (sa : EtherAddr) :
    Thins s.profiles (mlmeRxDisassoc s sa).profiles := by
  unfold mlmeRxDisassoc
  split
  · exact .of_eq rfl
  · next i hi =>
    refine apStaInfoFree_thins_of_update ?_ (changeStaDisassocToDeauth_profiles s i true)
    rw [changeStaDisassocToDeauth_valid]
    exact findStaByAddr_valid hi

theorem mlmeRxDeauth_thins (s : ApInfo cfg) (sa : EtherAddr) :
    Thins s.profiles (mlmeRxDeauth s sa).profiles := by
  unfold mlmeRxDeauth
  split
  · exact .of_eq rfl
  · next i hi =>
    refine apStaInfoFree_thins_of_update (p := (s.profiles i).disassoc) ?_ ?_
    · rw [modSta_sta_self, apStaSetAuthorized_sta_self]
      exact findStaByAddr_valid hi
    · rw [profiles_modSta, apStaSetAuthorized_profiles, apStaSetAuthorized_sta_self]
      rfl

theorem rxHStaProcess_profiles (s : ApInfo cfg) (rx : RxDesp cfg) :
    (rxHStaProcess s rx).profiles = s.profiles := by
  have hend : (apStaPsEnd s rx.sta).profiles = s.profiles := by
    change (apStaPsEnd s rx.sta).ctl.profiles = s.ctl.profiles
    rw [apStaPsEnd_ctl]
    split
    · exact setPs_profiles _ _ _ _
    · rfl
  have hstart : (apStaPsStart s rx.sta).profiles = s.profiles := by
    change (apStaPsStart s rx.sta).ctl.profiles = s.ctl.profiles
    rw [apStaPsStart_ctl]
    exact setPs_profiles _ _ _ _
  unfold rxHStaProcess
  dsimp only
  split_ifs
  · exact hend
  · rfl
  · rw [profiles_of_ctl (recalcTimGenBeacon_ctl _ _), hstart]
  · exact hstart
  · rfl

theorem rxFrame_profiles (s : ApInfo cfg) (sa : EtherAddr) (kind : RxKind) (pm : Bool) (up : ℕ) :
    (rxFrame s sa kind pm up).profiles = s.profiles := by
  have hreceived : ∀ (s : ApInfo cfg) rx, (dataNeedToBeReceived s rx).profiles = s.profiles := by
    intro s rx
    have hpoll := profiles_of_ctl (rxHUapsdAndPspoll_ctl s rx)
    unfold dataNeedToBeReceived
    split
    · split
      · next he =>
        rw [he] at hpoll
        rw [rxHStaProcess_profiles, hpoll]
      · next he =>
        rw [he] at hpoll
        exact hpoll
    · rfl
  unfold rxFrame
  split
  · exact sendMgmtFrame_profiles s sa
  · next i _ =>
    extract_lets s₁ s₂ rx
    have h₁ : s₁.profiles = s.profiles := profiles_modSta_of_eq rfl
    have h₂ : s₂.profiles = s₁.profiles := by
      dsimp only [s₂]
      split
      · rfl
      · exact sendMgmtFrame_profiles s₁ sa
    rw [hreceived, h₂, h₁]

theorem timerForgives_profile (st : Station cfg) (inactive : ℤ) :
    (timerForgives st inactive).2.profile = st.profile := by
  have hactive : ∀ (p : Prop) [Decidable p],
      (if p then { st with timeoutNext := .nullfunc } else st).profile = st.profile := by
    intro p _
    split <;> rfl
  unfold timerForgives
  extract_lets waiting active st'
  split_ifs
  · exact hactive active
  · exact hactive active

@[simp] theorem createStaTimer_profiles (s : ApInfo cfg) (i : StaIdx cfg) :
    (createStaTimer s i).profiles = s.profiles := rfl

/-- In the second stage of a timeout the station is disassociated, with its bits as they were. -/
theorem timerEscalates_profiles (s : ApInfo cfg) (i : StaIdx cfg) :
    ((s.sta i).timeoutNext = .disassoc ∧
        (timerEscalates s i).profiles = Function.update s.profiles i (s.profiles i).disassoc) ∨
      ((s.sta i).timeoutNext ≠ .disassoc ∧ Thins s.profiles (timerEscalates s i).profiles) := by
  unfold timerEscalates
  dsimp only
  cases (s.sta i).timeoutNext with
  | nullfunc =>
    refine .inr ⟨nofun, .of_eq ?_⟩
    dsimp only
    split
    · rw [createStaTimer_profiles, profiles_modSta_of_eq]
      rfl
    · rw [createStaTimer_profiles, profiles_modSta_of_eq, sendMgmtFrame_profiles]
      rfl
  | disassoc =>
    refine .inl ⟨rfl, ?_⟩
    rw [if_neg (by simp), createStaTimer_profiles, profiles_modSta_of_eq,
      changeStaDisassocToDeauth_profiles, sendMgmtFrame_profiles]
    rfl
  | deauth =>
    rw [if_neg (by simp), ← sendMgmtFrame_profiles s (s.sta i).addr]
    exact .inr ⟨nofun, apStaInfoFree_thins _ i⟩
  | remove =>
    rw [if_neg (by simp), ← sendMgmtFrame_profiles s (s.sta i).addr]
    exact .inr ⟨nofun, apStaInfoFree_thins _ i⟩

/-- The timer of a station reaches that stage. -/
def Disassociates (s : ApInfo cfg) (i : StaIdx cfg) (hostApiActive : Bool) (inactive : ℤ) : Prop :=
  (s.sta i).valid = true ∧ timerAct (s.sta i) hostApiActive inactive = .detach

instance (s : ApInfo cfg) (i : StaIdx cfg) (hostApiActive : Bool) (inactive : ℤ) :
    Decidable (Disassociates s i hostApiActive inactive) :=
  inferInstanceAs (Decidable (_ ∧ _))

theorem apHandleTimer_profiles (s : ApInfo cfg) (i : StaIdx cfg) (hostApiActive : Bool)
    (inactive : ℤ) :
    (Disassociates s i hostApiActive inactive ∧
        (apHandleTimer s i hostApiActive inactive).profiles
          = Function.update s.profiles i (s.profiles i).disassoc) ∨
      (¬ Disassociates s i hostApiActive inactive ∧
        Thins s.profiles (apHandleTimer s i hostApiActive inactive).profiles) := by
  unfold apHandleTimer Disassociates
  extract_lets s₁ r s₂
  have hsta : s₁.sta = s.sta := rfl
  have h₁ : s₁.profiles = s.profiles := rfl
  have h₂ : s₂.profiles = s.profiles := profiles_modSta_of_eq (timerForgives_profile _ _)
  have hr : timerForgives (s.sta i) inactive = r := rfl
  rw [hsta]
  cases hv : (s.sta i).valid with
  | false =>
    rw [Bool.not_false, if_pos rfl]
    exact .inr ⟨fun h => absurd h.1 Bool.false_ne_true, .of_eq h₁⟩
  | true =>
    rw [Bool.not_true, if_neg Bool.false_ne_true]
    by_cases hremove : (s.sta i).timeoutNext = .remove
    · rw [if_pos hremove, ← h₁]
      exact .inr ⟨by simp [timerAct, hremove], apStaInfoFree_thins s₁ i⟩
    rw [if_neg hremove]
    cases hostApiActive with
    | false =>
      rw [Bool.not_false, if_pos rfl]
      exact .inr ⟨by simp [timerAct, hremove], .of_eq h₁⟩
    | true =>
      rw [Bool.not_true, if_neg Bool.false_ne_true]
      by_cases hnext : r.1 = true
      · rw [if_pos hnext]
        exact .inr ⟨by simp [timerAct, hremove, hr, hnext], .of_eq h₂⟩
      rw [if_neg hnext]
      have hs₂ : (s₂.sta i).timeoutNext = r.2.timeoutNext := by rw [modSta_sta_self]
      have hact : timerAct (s.sta i) true inactive = .detach ↔ r.2.timeoutNext = .disassoc := by
        rw [timerAct, if_neg hremove, Bool.not_true, if_neg Bool.false_ne_true, hr]
        dsimp only
        rw [if_neg hnext]
        cases r.2.timeoutNext <;> simp
      have hesc := timerEscalates_profiles s₂ i
      rw [h₂, hs₂] at hesc
      rw [hact]
      exact hesc.imp (fun h => ⟨⟨rfl, h.1⟩, h.2⟩) fun h => ⟨fun h' => h.1 h'.2, h.2⟩

/-! ## Association -/

/-- Bits of a station are set. -/
def Station.count (st : Station cfg) (bits : Counted → Bool) : Station cfg :=
  { st with counted := fun c => st.counted c || bits c }

theorem Station.count_count (st : Station cfg) (f g : Counted → Bool) :
    (st.count f).count g = st.count fun c => f c || g c := by
  simp only [Station.count, Bool.or_assoc]

theorem setCounted_unless_sta (s : ApInfo cfg) (i : StaIdx cfg) (c : Counted) (b : Bool) :
    (if b = true then s else setCounted s i c).sta i
      = (s.sta i).count fun c' => decide (c' = c) && !b := by
  cases b with
  | false =>
    have hbits : Function.update (s.sta i).counted c true
        = fun c' => (s.sta i).counted c' || (decide (c' = c) && !false) := by
      funext c'
      by_cases hc : c' = c
      · subst hc
        simp
      · simp [hc]
    rw [if_neg Bool.false_ne_true, setCounted_sta_self, hbits]
    rfl
  | true => simp [Station.count]

theorem setCounted_sta (s : ApInfo cfg) (i : StaIdx cfg) (c : Counted) :
    (setCounted s i c).sta i = (s.sta i).count fun c' => decide (c' = c) := by
  simpa using setCounted_unless_sta s i c false

theorem updateHtState_sta (s : ApInfo cfg) (i : StaIdx cfg) :
    (updateHtState s i).sta i = (s.sta i).count fun c =>
      decide (c = .noHtGf ∨ c = .noHt ∨ c = .ht20mhz) && (s.sta i).lacks c := by
  unfold updateHtState
  cases hht : (s.sta i).ht with
  | false =>
    rw [if_neg Bool.false_ne_true, setCounted_sta]
    congr 1
    funext c
    cases c <;> simp [Station.lacks, hht]
  | true =>
    rw [if_pos rfl]
    extract_lets s₁
    have h₁ : s₁.sta i = _ := setCounted_unless_sta s i .noHtGf ((s.sta i).htCapab.testBit 4)
    rw [setCounted_unless_sta, h₁, Station.count_count]
    congr 1
    funext c
    cases c <;> simp [Station.lacks, Station.count, hht]

/-- The fixed fields of a request and the rates are recorded. -/
def Station.noted (st : Station cfg) (r : AssocReq) : Station cfg :=
  { st with
    capability := r.capabInfo
    nonerp := (cfg.modeG || st.nonerp)
      && !st.supportedRates.any fun rate => decide (22 < rate.toNat % 128) }

/-- With ERP protection configured, an accepted station is associated, and what it lacks now is
counted besides what was counted before. -/
theorem recordAssoc_profile_self (herp : cfg.erp = true) (s : ApInfo cfg) (i : StaIdx cfg)
    (r : AssocReq) : ((recordAssoc s i r).sta i).profile =
      { assoc := true
        counted := fun c => (s.sta i).counted c || ((s.sta i).noted r).lacks c
        lacks := ((s.sta i).noted r).lacks } := by
  unfold recordAssoc
  extract_lets fast s₁ s₂ s₃ s₄ s₅ s₆ s₇
  have h₁ : s₁.sta i = { (s.sta i).noted r with listenInterval := r.listenInterval } := by
    dsimp only [s₁]
    rw [modSta_sta_self]
    rfl
  have h₂ : s₂.sta i = (s₁.sta i).count fun c => decide (c = .nonErp) && (s₁.sta i).nonerp := by
    dsimp only [s₂]
    rw [herp, Bool.true_and]
    cases hnon : (s₁.sta i).nonerp with
    | false => simp [Station.count]
    | true =>
      rw [if_pos rfl, setCounted_sta]
      simp
  have h₃ : s₃.sta i = (s₂.sta i).count fun c =>
      decide (c = .noShortSlotTime) && !r.capabInfo.testBit 10 := setCounted_unless_sta ..
  have h₄ : s₄.sta i = { s₃.sta i with shortPreamble := r.capabInfo.testBit 5 } :=
    modSta_sta_self _ _ _
  have h₅ : s₅.sta i = (s₄.sta i).count fun c =>
      decide (c = .noShortPreamble) && !r.capabInfo.testBit 5 := setCounted_unless_sta ..
  have h₆ : s₆.sta i = { (updateHtState s₅ i).sta i with assoc := true } := modSta_sta_self _ _ _
  have h₇ : (s₇.sta i).profile = (s₆.sta i).profile := by
    dsimp only [s₇]
    split
    · rfl
    · exact congrFun (apStaSetAuthorized_profiles s₆ i true) i
  rw [modSta_sta_self]
  refine h₇.trans ?_
  -- each counter has its bit set in one of these states, by the fields of `noted`
  rw [h₆, updateHtState_sta, h₅, h₄, h₃, h₂, h₁]
  clear h₁ h₂ h₃ h₄ h₅ h₆ h₇
  simp only [Station.profile, Station.count, Profile.mk.injEq, true_and]
  refine ⟨?_, ?_⟩
  · funext c
    cases c <;> simp [Station.lacks, Station.noted]
  · funext c
    cases c <;> rfl

/-- The record of a station after `handle_assoc` has read a request. -/
def Station.told (st : Station cfg) (r : AssocReq) : Station cfg :=
  (checkAssocIes st r.elems).2.noted r

/-- The profile of a station whose request is accepted. -/
def Station.joined (st : Station cfg) (r : AssocReq) : Profile where
  assoc := true
  counted := fun c => st.counted c || (st.told r).lacks c
  lacks := (st.told r).lacks

/-- A request passes the checks of `handle_assoc`. -/
def Station.admits (st : Station cfg) (r : AssocReq) : Bool :=
  !r.tkipCountermeasures && decide (r.listenInterval ≤ maxListenInterval)
    && decide ((checkAssocIes st r.elems).1 = .success)

/-- A station that has an AID is refused only by the checks. -/
theorem tryAssoc_admits_iff (haid : (s.sta i).aid ≠ 0) (r : AssocReq) :
    (tryAssoc s i r).1 = .success ↔ (s.sta i).admits r = true := by
  have hhas : s.HasAid i := .inl (Nat.pos_of_ne_zero haid)
  rw [tryAssoc_success_iff, and_iff_left hhas]
  simp [AssocReq.Accepted, Station.admits, and_assoc]

theorem checkAssocIes_counted (st : Station cfg) (elems : Option Elems) :
    (checkAssocIes st elems).2.counted = st.counted :=
  have huntold : (checkAssocIes st elems).2.untold.counted = st.untold.counted :=
    congrArg Station.counted (checkAssocIes_untold st elems)
  huntold

theorem tryAssoc_profiles (herp : cfg.erp = true) {r : AssocReq}
    (h : (tryAssoc s i r).1 = .success) :
    (tryAssoc s i r).2.profiles = Function.update s.profiles i ((s.sta i).joined r) := by
  rcases tryAssoc_cases s i r with ⟨hne, -⟩ | ⟨s', hget, he⟩
  · exact absurd h hne
  obtain ⟨hother, n, hself⟩ := hostapdGetAid_sta hget
  rw [he, apSocCmdStaOper_profiles]
  funext j
  by_cases hj : j = i
  · subst hj
    have hrec := recordAssoc_profile_self herp s' j r
    rw [modSta_sta_self] at hself
    rw [hself, checkAssocIes_counted] at hrec
    rw [Function.update_self]
    exact hrec
  · rw [Function.update_of_ne hj]
    refine congrArg Station.profile ?_
    rw [(recordAssoc_unmoved s' i r).others j hj, hother j hj, modSta_sta_of_ne _ _ hj]

theorem tryAssoc_refused_profiles {r : AssocReq} (h : (tryAssoc s i r).1 ≠ .success)
    (hv : (s.sta i).valid = true) :
    Thins s.profiles (apStaInfoFree (tryAssoc s i r).2 i).profiles := by
  rcases tryAssoc_cases s i r with ⟨-, he | he⟩ | ⟨s', -, he⟩
  · rw [he]
    exact apStaInfoFree_thins s i
  · rw [he]
    refine apStaInfoFree_thins_of_update ?_ (profiles_modSta s i _)
    rw [modSta_sta_self]
    exact (checkAssocIes_valid _ _).trans hv
  · rw [he] at h
    exact absurd rfl h

/-- A request comes from station `i`, which is authenticated. -/
structure ComesFrom (s : ApInfo cfg) (r : AssocReq) (i : StaIdx cfg) : Prop where
  longEnough : r.longEnough = true
  found : findStaByAddr s r.sa = some i
  auth : (s.sta i).auth = true

theorem handleAssoc_profiles (herp : cfg.erp = true) (s : ApInfo cfg) (r : AssocReq) :
    (∃ i, ComesFrom s r i ∧ (tryAssoc s i r).1 = .success ∧
        (handleAssoc s r).1.profiles = Function.update s.profiles i ((s.sta i).joined r)) ∨
      ((∀ i, ComesFrom s r i → (tryAssoc s i r).1 ≠ .success) ∧
        Thins s.profiles (handleAssoc s r).1.profiles) := by
  unfold handleAssoc
  extract_lets notAuthed
  have hnot : notAuthed.profiles = s.profiles := by
    dsimp only [notAuthed]
    split
    · exact sendMgmtFrame_profiles s r.sa
    · rfl
  cases hlong : r.longEnough with
  | false => exact .inr ⟨fun i hi => absurd (hlong.symm.trans hi.longEnough) Bool.false_ne_true,
      .of_eq rfl⟩
  | true =>
    rw [Bool.not_true, if_neg Bool.false_ne_true]
    cases hfind : findStaByAddr s r.sa with
    | none =>
      refine .inr ⟨fun i hi => ?_, .of_eq hnot⟩
      rw [hi.found] at hfind
      cases hfind
    | some i =>
      have honly : ∀ j, ComesFrom s r j → j = i := fun j hj =>
        Option.some.inj (hj.found.symm.trans hfind)
      dsimp only
      cases hauth : (s.sta i).auth with
      | false =>
        rw [Bool.not_false, if_pos rfl]
        refine .inr ⟨fun j hj => ?_, .of_eq hnot⟩
        have hj' := hj.auth
        rw [honly j hj, hauth] at hj'
        exact absurd hj' Bool.false_ne_true
      | true =>
        rw [Bool.not_true, if_neg Bool.false_ne_true, sendMgmtFrame_profiles]
        by_cases hok : (tryAssoc s i r).1 = .success
        · rw [if_pos hok]
          exact .inl ⟨i, ⟨hlong, hfind, hauth⟩, hok, tryAssoc_profiles herp hok⟩
        · rw [if_neg hok]
          exact .inr ⟨fun j hj => honly j hj ▸ hok,
            tryAssoc_refused_profiles hok (findStaByAddr_valid hfind)⟩

/-! ## Runs -/

/-- Everything but associations and timers. -/
theorem apStep_thins (h : TableInv s.table) (e : ApEvent cfg) (hassoc : ∀ r, e ≠ .assoc r)
    (htimer : ∀ i hostApiActive inactive, e ≠ .timer i hostApiActive inactive) :
    Thins s.profiles (apStep s e).1.profiles := by
  cases e with
  | auth r => exact mlmeRxAuth_thins h r
  | assoc r => exact absurd rfl (hassoc r)
  | disassoc longEnough sa =>
    dsimp only [apStep]
    split
    · exact mlmeRxDisassoc_thins s sa
    · exact .of_eq rfl
  | deauth longEnough sa =>
    dsimp only [apStep]
    split
    · exact mlmeRxDeauth_thins s sa
    · exact .of_eq rfl
  | setAuthorized addr authorized =>
    dsimp only [apStep]
    split
    · next i _ => exact .of_eq (apStaSetAuthorized_profiles s i authorized)
    · exact .of_eq rfl
  | disconnect addr =>
    dsimp only [apStep]
    split
    · next i _ => exact removeSilent_thins h i
    · exact .of_eq rfl
  | timer i hostApiActive inactive => exact absurd rfl (htimer i hostApiActive inactive)
  | rx sa kind pm up => exact .of_eq (rxFrame_profiles s sa kind pm up)
  | tx now f bAPFrame pollFlag =>
    exact .of_eq (profiles_of_ctl (dataCouldBeSend_ctl now s f bAPFrame pollFlag))
  | pollResponse i => exact .of_eq (profiles_of_ctl (staPsDeliverPollResponse_ctl s i))
  | uapsd i => exact .of_eq (profiles_of_ctl (staPsDeliverUapsd_ctl s i))
  | cleanup now => exact .of_eq (profiles_of_ctl (staInfoCleanup_ctl now s))
  | drvRemove i => exact .of_eq (drvRemove_profiles s i)
  | free i => exact apStaInfoFree_thins s i

/-- A counted bit never tells of the past. Whatever is counted of a station, it still lacks
according to a request of it that passes the checks, and a station that its timer disassociates has
nothing counted. -/
def Refreshes (s : ApInfo cfg) : ApEvent cfg → Prop
  | .assoc r => ∀ i, ComesFrom s r i → (s.sta i).admits r = true →
    ∀ c, (s.sta i).counted c = true → ((s.sta i).told r).lacks c = true
  | .timer i hostApiActive inactive => Disassociates s i hostApiActive inactive →
    ∀ c, (s.sta i).counted c = false
  | _ => True

/-- An event is an association, a timer, or something else. -/
theorem ApEvent.kinds (e : ApEvent cfg) :
    (∃ r, e = .assoc r) ∨ (∃ i hostApiActive inactive, e = .timer i hostApiActive inactive) ∨
      (∀ r, e ≠ .assoc r) ∧ ∀ i hostApiActive inactive, e ≠ .timer i hostApiActive inactive := by
  cases e <;> simp

theorem refreshes_of_ne {e : ApEvent cfg} (hassoc : ∀ r, e ≠ .assoc r)
    (htimer : ∀ i hostApiActive inactive, e ≠ .timer i hostApiActive inactive) :
    Refreshes s e := by
  cases e with
  | assoc r => exact absurd rfl (hassoc r)
  | timer i hostApiActive inactive => exact absurd rfl (htimer i hostApiActive inactive)
  | _ => trivial

theorem joined_covered (st : Station cfg) (r : AssocReq) : (st.joined r).Covered := fun c _ hc => by
  have hlacks : (st.told r).lacks c = true := hc
  change (st.counted c || (st.told r).lacks c) = true
  rw [hlacks, Bool.or_true]

theorem disassoc_covered (p : Profile) : p.disassoc.Covered := fun _ h =>
  absurd h Bool.false_ne_true

theorem joined_current_iff (st : Station cfg) (r : AssocReq) :
    (st.joined r).Current ↔ ∀ c, st.counted c = true → (st.told r).lacks c = true := by
  refine forall_congr' fun c => ?_
  change (st.counted c || (st.told r).lacks c) = (true && (st.told r).lacks c) ↔ _
  cases st.counted c <;> cases (st.told r).lacks c <;> decide

theorem disassoc_current_iff (p : Profile) : p.disassoc.Current ↔ ∀ c, p.counted c = false := by
  refine forall_congr' fun c => ?_
  change p.counted c = (false && p.lacks c) ↔ _
  rw [Bool.false_and]

/-- What an associated station lacks is counted, after every event. -/
theorem apStep_covered (herp : cfg.erp = true) (h : TableInv s.table)
    (hs : ∀ j, (s.profiles j).Covered) (e : ApEvent cfg) (j : StaIdx cfg) :
    ((apStep s e).1.profiles j).Covered := by
  have hthins : ∀ {v' : StaIdx cfg → Profile}, Thins s.profiles v' → (v' j).Covered := fun hv =>
    hv.forall (fun _ => Profile.Gone.covered) hs j
  rcases e.kinds with ⟨r, rfl⟩ | ⟨i, hostApiActive, inactive, rfl⟩ | ⟨hassoc, htimer⟩
  · rcases handleAssoc_profiles herp s r with ⟨i, -, -, he⟩ | ⟨-, hv⟩
    · change ((handleAssoc s r).1.profiles j).Covered
      rw [he]
      exact (forall_update_iff hs i _).mpr (joined_covered _ r) j
    · exact hthins hv
  · rcases apHandleTimer_profiles s i hostApiActive inactive with ⟨-, he⟩ | ⟨-, hv⟩
    · change ((apHandleTimer s i hostApiActive inactive).profiles j).Covered
      rw [he]
      exact (forall_update_iff hs i _).mpr (disassoc_covered _) j
    · exact hthins hv
  · exact hthins (apStep_thins h e hassoc htimer)

/-- Bits that are up to date stay so exactly when the event refreshes them. -/
theorem apStep_current_iff (herp : cfg.erp = true) (h : TableInv s.table)
    (hs : ∀ j, (s.profiles j).Current) (e : ApEvent cfg) :
    (∀ j, ((apStep s e).1.profiles j).Current) ↔ Refreshes s e := by
  have hthins : ∀ {v' : StaIdx cfg → Profile}, Thins s.profiles v' → ∀ j, (v' j).Current :=
    fun hv => hv.forall (fun _ => Profile.Gone.current) hs
  -- only of associated stations anything is counted, and these have an AID
  have haid : ∀ {i c}, (s.sta i).counted c = true → (s.sta i).aid ≠ 0 := by
    intro i c hc
    have hcur := hs i c
    rw [show (s.profiles i).counted c = true from hc, eq_comm, Bool.and_eq_true] at hcur
    exact h.aid_of_assoc i hcur.1
  rcases e.kinds with ⟨r, rfl⟩ | ⟨i, hostApiActive, inactive, rfl⟩ | ⟨hassoc, htimer⟩
  · rcases handleAssoc_profiles herp s r with ⟨i, hi, hok, he⟩ | ⟨hno, hv⟩
    · change (∀ j, ((handleAssoc s r).1.profiles j).Current) ↔ _
      rw [he, forall_update_iff hs i, joined_current_iff]
      refine ⟨fun hcur j hj _ c hc => ?_, fun href c hc => ?_⟩
      · obtain rfl := Option.some.inj (hj.found.symm.trans hi.found)
        exact hcur c hc
      · exact href i hi ((tryAssoc_admits_iff (haid hc) r).mp hok) c hc
    · refine iff_of_true (hthins hv) fun i hi hadm c hc => ?_
      exact absurd ((tryAssoc_admits_iff (haid hc) r).mpr hadm) (hno i hi)
  · rcases apHandleTimer_profiles s i hostApiActive inactive with ⟨hdis, he⟩ | ⟨hno, hv⟩
    · change (∀ j, ((apHandleTimer s i hostApiActive inactive).profiles j).Current) ↔ _
      rw [he, forall_update_iff hs i, disassoc_current_iff]
      exact ⟨fun hc _ => hc, fun href => href hdis⟩
    · exact iff_of_true (hthins hv) fun hdis => absurd hdis hno
  · exact iff_of_true (hthins (apStep_thins h e hassoc htimer)) (refreshes_of_ne hassoc htimer)

/-- Each counter is the number of associated stations that lack what it is about. -/
def CapabilitiesCounted (s : ApInfo cfg) : Prop :=
  ∀ c, s.num c = count (fun st => st.assoc && st.lacks c) s.sta

theorem capabilitiesCounted_iff (h : TableInv s.table) (hs : ∀ j, (s.profiles j).Covered) :
    CapabilitiesCounted s ↔ ∀ j, (s.profiles j).Current := by
  have hc : ∀ c, s.num c = count (fun st => st.assoc && st.lacks c) s.sta ↔
      ∀ j, (s.sta j).counted c = ((s.sta j).assoc && (s.sta j).lacks c) := by
    intro c
    have hnum : s.num c = count (fun st => st.counted c) s.sta :=
      (h.num c).trans (count_congr fun _ => rfl)
    rw [hnum]
    refine count_eq_iff_of_imp fun j hj => ?_
    rw [Bool.and_eq_true] at hj
    exact hs j c hj.1 hj.2
  exact (forall_congr' hc).trans forall_comm

/-- **The protection counters describe the present exactly while no bit outlives its reason.** With
ERP protection configured, in every run, each counter is the number of associated stations that lack
the capability, according to their latest association, in every state, exactly when no station is
accepted with a capability whose lack is still counted of it, and no timer disassociates a station
of which something is counted. -/
theorem apRun_capabilities_iff (cfg : ApCfg) (herp : cfg.erp = true) (es : List (ApEvent cfg)) :
    (∀ js, js <+: es → CapabilitiesCounted (Machine.run apStep (initAp cfg) js).1) ↔
      Machine.Meets apStep Refreshes (initAp cfg) es := by
  have hgone : ∀ j, ((initAp cfg).profiles j).Gone := fun _ => ⟨rfl, fun _ => rfl⟩
  refine Machine.forall_prefix_iff_meets
    (I := fun s _ => TableInv s.table ∧ ∀ j, (s.profiles j).Covered)
    (P := fun s _ => CapabilitiesCounted s) ⟨tableInv_initAp, fun j => (hgone j).covered⟩
    (fun s _ e hI => ⟨tableInv_kept.apStep hI.1 e (grantsOnly_true s e),
      apStep_covered herp hI.1 hI.2 e⟩)
    ((capabilitiesCounted_iff tableInv_initAp fun j => (hgone j).covered).mpr
      fun j => (hgone j).current)
    (fun s _ e hI hP => ?_) es
  rw [capabilitiesCounted_iff hI.1 hI.2] at hP
  rw [← apStep_current_iff herp hI.1 hP e]
  exact capabilitiesCounted_iff (tableInv_kept.apStep hI.1 e (grantsOnly_true s e))
    (apStep_covered herp hI.1 hI.2 e)

/-- A station joins, of which nothing was counted. -/
theorem joined_capabilitiesCounted :
    let es := [authEvent openAp (Vector.replicate 6 4), assocEvent openAp (Vector.replicate 6 4)]
    Machine.Meets apStep Refreshes (initAp openAp) es ∧
      ∀ js, js <+: es → CapabilitiesCounted (Machine.run apStep (initAp openAp) js).1 := by
  intro es
  have hblank : ∀ i : StaIdx openAp, ∀ c ∈ countedBits,
      ((apStep (initAp openAp) (authEvent openAp (Vector.replicate 6 4))).1.sta i).counted c
        = false := by
    decide +kernel
  have hmeets : Machine.Meets apStep Refreshes (initAp openAp) es := by
    refine ⟨trivial, fun i _ _ c hc => ?_, trivial⟩
    exact absurd ((hblank i c (mem_countedBits c)).symm.trans hc) Bool.false_ne_true
  exact ⟨hmeets, (apRun_capabilities_iff openAp rfl es).mpr hmeets⟩

/-- A station that knows neither short slot time nor short preamble joins, and associates again as
one that does. It is still counted. -/
theorem upgraded_still_counted :
    ¬ CapabilitiesCounted (Machine.run apStep (initAp openAp)
      [authEvent openAp (Vector.replicate 6 4), assocEvent openAp (Vector.replicate 6 4),
        .assoc
          { longEnough := true, sa := Vector.replicate 6 4, reassoc := true, capabInfo := 0x420
            listenInterval := 10, tkipCountermeasures := false
            elems := some { ssid := some [], wmm := none, suppRates := some [2]
                            extSuppRates := none, htCapab := none, rsn := none } }]).1 := by
  intro h
  have hslot := h .noShortSlotTime
  revert hslot
  decide +kernel

end Fullmac.Ap
