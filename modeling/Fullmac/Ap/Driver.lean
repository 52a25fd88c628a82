import Fullmac.Ap.Handlers
import Mathlib.Logic.Relation

/-!
# The stations outside the table

A station of the access point is also known to the hardware, under its number, to the timers, and to
the block-ack sessions. `ApInfo.dv` is the view of the state that shows this and nothing else: who
is there with which number, and the `Driver`.

Only a few things happen to it. A station takes a slot (`DrvView.take`), the hardware learns of it
(`DrvView.attach`) and forgets it (`DrvView.detach`), it leaves the table (`DrvView.free`), its
timer is armed or ends. Each handler is one of these or a short sequence of them, and the equations
of this module say which.
-/

namespace Fullmac.Ap

variable {cfg : ApCfg}

/-! ## The view -/

/-- What the driver knows of a station. -/
structure DrvEntry where
  valid : Bool
  addr : EtherAddr
  wsidIdx : ℕ

def Station.drvEntry (st : Station cfg) : DrvEntry where
  valid := st.valid
  addr := st.addr
  wsidIdx := st.wsidIdx

/-- The stations and the driver; the tests of frames are not looked at. -/
structure DrvView (cfg : ApCfg) where
  sta : StaIdx cfg → DrvEntry
  drv : Driver cfg

def ApInfo.dv (s : ApInfo cfg) : DrvView cfg where
  sta := fun i => (s.sta i).drvEntry
  drv := { s.drv with tests := [] }

/-- The view is a part of `ctl`. -/
theorem dv_of_ctl {s s' : ApInfo cfg} (h : s'.ctl = s.ctl) : s'.dv = s.dv :=
  have hctl : s'.ctl.dv = s.ctl.dv := congrArg ApInfo.dv h
  hctl

/-- One station changes. -/
def DrvView.setSta (v : DrvView cfg) (i : StaIdx cfg) (e : DrvEntry) : DrvView cfg :=
  { v with sta := Function.update v.sta i e }

theorem dv_modSta (s : ApInfo cfg) (i : StaIdx cfg) (f : Station cfg → Station cfg) :
    (s.modSta i f).dv = s.dv.setSta i (f (s.sta i)).drvEntry := by
  have hsta : (fun j => (Function.update s.sta i (f (s.sta i)) j).drvEntry)
      = Function.update (fun j => (s.sta j).drvEntry) i (f (s.sta i)).drvEntry := by
    funext j
    by_cases hj : j = i
    · subst hj; simp
    · simp [Function.update_of_ne hj]
  simp only [ApInfo.dv, ApInfo.modSta, DrvView.setSta, hsta]

theorem DrvView.setSta_self (v : DrvView cfg) (i : StaIdx cfg) : v.setSta i (v.sta i) = v := by
  simp [DrvView.setSta]

/-- A change of a station that the driver does not see. -/
theorem dv_modSta_of_eq {s : ApInfo cfg} {i : StaIdx cfg} {f : Station cfg → Station cfg}
    (h : (f (s.sta i)).drvEntry = (s.sta i).drvEntry) : (s.modSta i f).dv = s.dv := by
  rw [dv_modSta, h]
  exact DrvView.setSta_self s.dv i

theorem drvEntry_of_core {st st' : Station cfg} (h : st'.core = st.core) :
    st'.drvEntry = st.drvEntry :=
  have hcore : st'.core.drvEntry = st.core.drvEntry := congrArg Station.drvEntry h
  hcore

/-! ## What happens to it -/

/-- `CFG_STA_ADD` or `CFG_STA_DEL` is sent for a number. -/
def operWsid (cfg : ApCfg) (used : ℕ → Bool) (w : ℕ) (add : Bool) : ℕ → Bool :=
  if w < cfg.maxAid then Function.update used w add else used

/-- `CFG_STA_ADD` or `CFG_STA_DEL` is sent for a station. -/
def DrvView.oper (v : DrvView cfg) (i : StaIdx cfg) (add : Bool) : DrvView cfg :=
  { v with drv := { v.drv with wsid := operWsid cfg v.drv.wsid (v.sta i).wsidIdx add } }

/-- The hardware learns of a station. -/
def DrvView.attach (v : DrvView cfg) (i : StaIdx cfg) : DrvView cfg := v.oper i true

/-- The hardware forgets a station, and the station its number. -/
def DrvView.detach (v : DrvView cfg) (i : StaIdx cfg) : DrvView cfg :=
  (v.oper i false).setSta i { v.sta i with wsidIdx := cfg.maxAid }

/-- A timer of a station is armed. -/
def DrvView.createTimer (v : DrvView cfg) (i : StaIdx cfg) : DrvView cfg :=
  { v with drv :=
    { v.drv with staTimer := Function.update v.drv.staTimer i (v.drv.staTimer i + 1) } }

/-- A timer of a station ends. -/
def DrvView.endTimer (v : DrvView cfg) (i : StaIdx cfg) : DrvView cfg :=
  { v with drv :=
    { v.drv with staTimer := Function.update v.drv.staTimer i (v.drv.staTimer i - 1) } }

/-- The sessions of a number end. -/
def deleteSessions (cfg : ApCfg) (t : Rx.BaTable) (w : ℕ) : Rx.BaTable :=
  if cfg.ampduRxEnable then (Rx.deleteAmpduRx cfg.host Rx.Env.ap t (w % 256)).1 else t

/-- The sessions of a station end, and so does the timer that releases their frames. -/
def DrvView.endSessions (v : DrvView cfg) (i : StaIdx cfg) : DrvView cfg :=
  { v with drv :=
    { v.drv with
      sessions := deleteSessions cfg v.drv.sessions (v.sta i).wsidIdx
      reorderTimer := if cfg.ampduRxEnable then v.drv.reorderTimer - 1 else v.drv.reorderTimer } }

/-- A slot without a station. -/
def DrvEntry.blank : DrvEntry where
  valid := false
  addr := Vector.replicate 6 0
  wsidIdx := 0

/-- A station leaves the table. -/
def DrvView.leave (v : DrvView cfg) (i : StaIdx cfg) : DrvView cfg :=
  (((v.endSessions i).oper i false).endTimer i).setSta i .blank

/-- `APStaInfo_free` does nothing to a slot without a station. -/
def DrvView.free (v : DrvView cfg) (i : StaIdx cfg) : DrvView cfg :=
  if (v.sta i).valid then v.leave i else v

/-- A silent station is removed: it is detached before it leaves. -/
def DrvView.remove (v : DrvView cfg) (i : StaIdx cfg) : DrvView cfg :=
  ((v.detach i).endTimer i).free i

/-- A station takes a slot, with a number. -/
def DrvView.take (v : DrvView cfg) (i : StaIdx cfg) (addr : EtherAddr) (w : ℕ) : DrvView cfg :=
  let v := v.createTimer i
  { v with drv := { v.drv with given := Function.update v.drv.given i w } }.setSta i
    { valid := true, addr, wsidIdx := w }

/-- The number that a new station gets. -/
def DrvView.newWsid (v : DrvView cfg) (i : StaIdx cfg) : ℕ :=
  if 1 < cfg.maxVifNum then halGetAvaWsid v.drv.wsid 1 else i

/-! ## What the handlers do -/

section Handlers

@[simp] theorem sendMgmtFrame_dv (s : ApInfo cfg) (da : EtherAddr) :
    (sendMgmtFrame s da).dv = s.dv :=
  dv_of_ctl (sendMgmtFrame_ctl s da)

@[simp] theorem apStaSetAuthorized_dv (s : ApInfo cfg) (i : StaIdx cfg) (b : Bool) :
    (apStaSetAuthorized s i b).dv = s.dv := by
  unfold apStaSetAuthorized
  split_ifs
  · rfl
  · exact dv_modSta_of_eq rfl
  · exact dv_modSta_of_eq rfl

@[simp] theorem setCounted_dv (s : ApInfo cfg) (i : StaIdx cfg) (c : Counted) :
    (setCounted s i c).dv = s.dv := by
  unfold setCounted
  split
  · rfl
  · exact dv_modSta_of_eq rfl

@[simp] theorem clearCounted_dv (s : ApInfo cfg) (i : StaIdx cfg) (c : Counted) :
    (clearCounted s i c).dv = s.dv := by
  unfold clearCounted
  split
  · exact dv_modSta_of_eq rfl
  · rfl

@[simp] theorem releaseAid_dv (s : ApInfo cfg) (aid : ℕ) : (releaseAid s aid).dv = s.dv := by
  unfold releaseAid
  split <;> rfl

@[simp] theorem decNumSta_dv (s : ApInfo cfg) : (decNumSta s).dv = s.dv := by
  unfold decNumSta
  split <;> rfl

@[simp] theorem apSocCmdStaOper_dv (s : ApInfo cfg) (i : StaIdx cfg) (add : Bool) :
    (apSocCmdStaOper s i add).dv = s.dv.oper i add := by
  have hw : (s.dv.sta i).wsidIdx = (s.sta i).wsidIdx := rfl
  unfold apSocCmdStaOper DrvView.oper operWsid
  rw [hw]
  dsimp only
  split <;> rfl

@[simp] theorem createStaTimer_dv (s : ApInfo cfg) (i : StaIdx cfg) :
    (createStaTimer s i).dv = s.dv.createTimer i := rfl

@[simp] theorem endStaTimer_dv (s : ApInfo cfg) (i : StaIdx cfg) :
    (endStaTimer s i).dv = s.dv.endTimer i := rfl

@[simp] theorem endSessions_dv (s : ApInfo cfg) (i : StaIdx cfg) :
    (endSessions s i).dv = s.dv.endSessions i := by
  have hw : (s.dv.sta i).wsidIdx = (s.sta i).wsidIdx := rfl
  unfold endSessions DrvView.endSessions deleteSessions
  rw [hw]
  split <;> rfl

theorem drvRemovePs_dv (s : ApInfo cfg) (i : StaIdx cfg) : (drvRemovePs s i).dv = s.dv := by
  change (drvRemovePs s i).ctl.dv = _
  rw [drvRemovePs_ctl]
  split
  · exact dv_modSta_of_eq rfl
  · rfl

theorem drvDetach_dv (s : ApInfo cfg) (i : StaIdx cfg) : (drvDetach s i).dv = s.dv.detach i := by
  have hsta : ((apSocCmdStaOper s i false).sta i).drvEntry = s.dv.sta i := by
    unfold apSocCmdStaOper
    dsimp only
    split <;> rfl
  rw [drvDetach, dv_modSta, apSocCmdStaOper_dv, DrvView.detach, ← hsta]
  rfl

@[simp] theorem drvRemove_dv (s : ApInfo cfg) (i : StaIdx cfg) :
    (drvRemove s i).dv = s.dv.detach i := by
  rw [drvRemove, drvDetach_dv, drvRemovePs_dv]

/-- Detaching a station and arming its timer anew, if that is asked for. -/
theorem changeStaDisassocToDeauth_dv (s : ApInfo cfg) (i : StaIdx cfg) (timerCreat : Bool) :
    (changeStaDisassocToDeauth s i timerCreat).dv = s.dv.detach i ∨
      timerCreat = true ∧ (changeStaDisassocToDeauth s i timerCreat).dv
        = ((s.dv.detach i).endTimer i).createTimer i := by
  unfold changeStaDisassocToDeauth
  extract_lets s₁ s₂
  have h₁ : s₁.dv = s.dv := apStaSetAuthorized_dv s i false
  have h₂ : s₂.dv = s.dv.detach i := by
    dsimp only [s₂]
    rw [drvRemove_dv, dv_modSta_of_eq, h₁]
    rfl
  split
  · next hcreat =>
    refine .inr ⟨hcreat.1, ?_⟩
    rw [createStaTimer_dv, endStaTimer_dv, dv_modSta_of_eq, h₂]
    rfl
  · exact .inl h₂

theorem changeStaDisassocToDeauth_false_dv (s : ApInfo cfg) (i : StaIdx cfg) :
    (changeStaDisassocToDeauth s i false).dv = s.dv.detach i := by
  rcases changeStaDisassocToDeauth_dv s i false with h | ⟨h, -⟩
  · exact h
  · exact absurd h Bool.false_ne_true

/-- The last that is written to a station's record hides what was written before. -/
theorem DrvView.leave_eq (v : DrvView cfg) (i : StaIdx cfg) {e : DrvEntry}
    (he : e.wsidIdx = (v.sta i).wsidIdx) :
    ((((v.setSta i e).endSessions i).detach i).endTimer i).setSta i .blank = v.leave i := by
  simp only [leave, detach, endSessions, oper, endTimer, setSta, Function.update_self,
    Function.update_idem, he]

@[simp] theorem apStaInfoFree_dv (s : ApInfo cfg) (i : StaIdx cfg) :
    (apStaInfoFree s i).dv = s.dv.free i := by
  unfold apStaInfoFree DrvView.free
  cases hv : (s.sta i).valid with
  | false =>
    have hview : (s.dv.sta i).valid = false := hv
    simp [hview]
  | true =>
    have hview : (s.dv.sta i).valid = true := hv
    rw [if_neg (by simp), if_pos hview]
    extract_lets s₁ s₂ s₃ s₄
    have h₁ : s₁.dv = (s.dv.setSta i { s.dv.sta i with valid := false }).endSessions i := by
      dsimp only [s₁]
      rw [endSessions_dv, dv_modSta]
      rfl
    have h₂ : s₂.dv = s₁.dv.detach i := by
      dsimp only [s₂]
      rw [drvRemove_dv, apStaSetAuthorized_dv]
    have h₃ : s₃.dv = s₂.dv := by
      dsimp only [s₃]
      rw [decNumSta_dv, releaseAid_dv]
    have h₄ : s₄.dv = s₃.dv :=
      List.foldlRecOn (motive := fun s' : ApInfo cfg => s'.dv = s₃.dv) _ _ rfl
        fun s' hs c _ => (clearCounted_dv s' i c).trans hs
    rw [dv_modSta, endStaTimer_dv, h₄, h₃, h₂, h₁]
    exact s.dv.leave_eq i rfl

@[simp] theorem removeSilent_dv (s : ApInfo cfg) (i : StaIdx cfg) :
    (removeSilent s i).dv = s.dv.remove i := by
  unfold removeSilent
  extract_lets s₁ s₂
  have h₁ : s₁.dv = s.dv.detach i :=
    (dv_modSta_of_eq rfl).trans (changeStaDisassocToDeauth_false_dv s i)
  rw [apStaInfoFree_dv, sendMgmtFrame_dv]
  exact congrArg (fun v : DrvView cfg => (v.endTimer i).free i) h₁

theorem takeSlot_dv (s : ApInfo cfg) (i : StaIdx cfg) (addr : EtherAddr) :
    (takeSlot s i addr).dv = s.dv.take i addr (s.dv.newWsid i) := by
  unfold takeSlot
  rw [dv_modSta]
  rfl

theorem authenticate_drvEntry (st : Station cfg) (r : AuthReq) :
    (authenticate st r).2.drvEntry = st.drvEntry := by
  rcases authenticate_core st r with h | h
  · exact drvEntry_of_core h
  · exact @drvEntry_of_core cfg { st with auth := true } _ h

/-- What an authentication request comes to depends on the challenge it answers. -/
theorem authenticate_status {st st' : Station cfg} (h : st'.challenge = st.challenge)
    (r : AuthReq) : (authenticate st' r).1 = (authenticate st r).1 := by
  unfold authenticate authSharedKey
  rw [h]
  split_ifs
  · rfl
  · split <;> rfl
  · rfl
  · rfl
  · rfl

theorem recordAssoc_dv (s : ApInfo cfg) (i : StaIdx cfg) (r : AssocReq) :
    (recordAssoc s i r).dv = s.dv :=
  recordAssoc_rule (P := fun s' => s'.dv = s.dv) (Q := fun s' => s'.dv = s.dv)
    (fun hs hc _ => (dv_modSta_of_eq (drvEntry_of_core hc)).trans hs)
    (fun {s'} hs c => (setCounted_dv s' i c).trans hs)
    (fun hs => (dv_modSta_of_eq rfl).trans hs)
    (fun {s'} hs => (apStaSetAuthorized_dv s' i true).trans hs)
    (fun hs => (dv_modSta_of_eq rfl).trans hs) rfl r

theorem hostapdGetAid_dv {s s' : ApInfo cfg} {i : StaIdx cfg} (h : hostapdGetAid s i = some s') :
    s'.dv = s.dv := by
  unfold hostapdGetAid at h
  split at h
  · cases h; rfl
  · split at h
    · cases h
    · cases h; exact dv_modSta_of_eq rfl

theorem tryAssoc_dv (s : ApInfo cfg) (i : StaIdx cfg) (r : AssocReq) :
    (tryAssoc s i r).2.dv = if (tryAssoc s i r).1 = .success then s.dv.attach i else s.dv := by
  have hchecked : (s.modSta i fun _ => (checkAssocIes (s.sta i) r.elems).2).dv = s.dv :=
    dv_modSta_of_eq (drvEntry_of_core (checkAssocIes_core _ _))
  rcases tryAssoc_cases s i r with ⟨hne, he | he⟩ | ⟨s', hget, he⟩
  · rw [if_neg hne, he]
  · rw [if_neg hne, he, hchecked]
  · rw [he, if_pos rfl, apSocCmdStaOper_dv, recordAssoc_dv, hostapdGetAid_dv hget, hchecked]
    rfl

end Handlers

/-! ## What the events do -/

section Events

/-- Arming a timer anew does not show once the station has left. -/
theorem DrvView.free_rearm {v : DrvView cfg} {i : StaIdx cfg} (h : (v.sta i).valid = true) :
    ((v.endTimer i).createTimer i).free i = v.free i := by
  have hv : (((v.endTimer i).createTimer i).sta i).valid = true := h
  have hcount : v.drv.staTimer i - 1 + 1 - 1 = v.drv.staTimer i - 1 := by omega
  rw [free, free, if_pos hv, if_pos h]
  simp only [leave, endSessions, oper, endTimer, createTimer, setSta, Function.update_idem,
    Function.update_self, hcount]

/-- `ap_mlme_rx_disassoc` detaches a station before it leaves. -/
theorem mlmeRxDisassoc_dv (s : ApInfo cfg) (sa : EtherAddr) :
    (mlmeRxDisassoc s sa).dv = match findStaByAddr s sa with
      | none => s.dv
      | some i => (s.dv.detach i).free i := by
  unfold mlmeRxDisassoc
  cases hi : findStaByAddr s sa with
  | none => rfl
  | some i =>
    have hvalid : (s.dv.sta i).valid = true := findStaByAddr_valid hi
    have hv : ((s.dv.detach i).sta i).valid = true := by
      simpa [DrvView.detach, DrvView.setSta] using hvalid
    dsimp only
    rw [apStaInfoFree_dv]
    rcases changeStaDisassocToDeauth_dv s i true with h | ⟨-, h⟩ <;> rw [h]
    exact DrvView.free_rearm hv

/-- `ap_mlme_rx_deauth`. -/
theorem mlmeRxDeauth_dv (s : ApInfo cfg) (sa : EtherAddr) :
    (mlmeRxDeauth s sa).dv = match findStaByAddr s sa with
      | none => s.dv
      | some i => s.dv.free i := by
  unfold mlmeRxDeauth
  cases findStaByAddr s sa with
  | none => rfl
  | some i =>
    dsimp only
    rw [apStaInfoFree_dv, dv_modSta_of_eq rfl, apStaSetAuthorized_dv]

/-- `ap_mlme_rx_auth`: a station that is new takes a slot, and leaves it at once if its request
fails. -/
theorem mlmeRxAuth_dv (s : ApInfo cfg) (r : AuthReq) :
    (mlmeRxAuth s r).1.dv =
      if !r.longEnough ∨ authStatus cfg r ≠ .success then s.dv
      else match findStaByAddr s r.sa with
        | some i => if (authenticate (s.sta i) r).1 = .success then s.dv else s.dv.free i
        | none =>
          match getNewSta (evictSilent s) with
          | none => (evictSilent s).dv
          | some i =>
            let v := (evictSilent s).dv.take i r.sa ((evictSilent s).dv.newWsid i)
            if (authenticate ((evictSilent s).sta i) r).1 = .success then v else v.free i := by
  have hauth : ∀ (s : ApInfo cfg) i,
      (s.modSta i fun _ => (authenticate (s.sta i) r).2).dv = s.dv := fun s i =>
    dv_modSta_of_eq (authenticate_drvEntry (s.sta i) r)
  have hset : ∀ (s : ApInfo cfg) i, ∀ b : Status,
      (if b = .success then s.modSta i fun _ => (authenticate (s.sta i) r).2
        else apStaInfoFree (s.modSta i fun _ => (authenticate (s.sta i) r).2) i).dv
      = if b = .success then s.dv else s.dv.free i := by
    intro s i b
    split
    · exact hauth s i
    · rw [apStaInfoFree_dv, hauth]
  unfold mlmeRxAuth
  by_cases hshort : (!r.longEnough) = true
  · rw [if_pos hshort, if_pos (.inl hshort)]
  by_cases hstatus : authStatus cfg r ≠ .success
  · rw [if_neg hshort, if_pos hstatus, if_pos (.inr hstatus)]
    exact sendMgmtFrame_dv s r.sa
  rw [if_neg hshort, if_neg hstatus, if_neg (by tauto)]
  rcases apStaInfoAdd_cases s r.sa with
    ⟨i, hfind, he⟩ | ⟨hfind, hnew, he⟩ | ⟨i, hfind, hnew, he⟩ <;>
    rw [he, hfind]
  · dsimp only
    rw [sendMgmtFrame_dv, hset]
  · dsimp only
    rw [sendMgmtFrame_dv, hnew]
  · dsimp only
    have hstatus : (authenticate ((takeSlot (evictSilent s) i r.sa).sta i) r).1
        = (authenticate ((evictSilent s).sta i) r).1 :=
      authenticate_status (by simp [takeSlot, createStaTimer]) r
    rw [sendMgmtFrame_dv, hset, takeSlot_dv, hnew, hstatus]

/-- `handle_assoc`: the hardware learns of a station that is accepted; a refused one leaves. -/
theorem handleAssoc_dv (s : ApInfo cfg) (r : AssocReq) :
    (handleAssoc s r).1.dv =
      if !r.longEnough then s.dv
      else match findStaByAddr s r.sa with
        | none => s.dv
        | some i =>
          if !(s.sta i).auth then s.dv
          else if (tryAssoc s i r).1 = .success then s.dv.attach i else s.dv.free i := by
  unfold handleAssoc
  extract_lets notAuthed
  have hnot : notAuthed.dv = s.dv := by
    dsimp only [notAuthed]
    split
    · exact sendMgmtFrame_dv s r.sa
    · rfl
  by_cases hshort : (!r.longEnough) = true
  · rw [if_pos hshort, if_pos hshort]
  rw [if_neg hshort, if_neg hshort]
  cases findStaByAddr s r.sa with
  | none => exact hnot
  | some i =>
    dsimp only
    by_cases hauth : (!(s.sta i).auth) = true
    · rw [if_pos hauth, if_pos hauth]
      exact hnot
    rw [if_neg hauth, if_neg hauth, sendMgmtFrame_dv]
    have htry := tryAssoc_dv s i r
    by_cases hok : (tryAssoc s i r).1 = .success
    · rw [if_pos hok, if_pos hok, htry, if_pos hok]
    · rw [if_neg hok, if_neg hok, apStaInfoFree_dv, htry, if_neg hok]

/-- What `ap_handle_timer` does to a station that is there. -/
inductive TimerAct
  | rearm | detach | free
deriving DecidableEq, Repr

/-- A station is detached in the second stage of its timeout and leaves in the third. -/
def timerAct (st : Station cfg) (hostApiActive : Bool) (inactive : ℤ) : TimerAct :=
  if st.timeoutNext = .remove then .free
  else if !hostApiActive then .rearm
  else
    let r := timerForgives st inactive
    if r.1 then .rearm
    else match r.2.timeoutNext with
      | .nullfunc => .rearm
      | .disassoc => .detach
      | .deauth | .remove => .free

/-- The stages of a timeout. -/
theorem timerEscalates_dv (s : ApInfo cfg) (i : StaIdx cfg) : (timerEscalates s i).dv =
    match (s.sta i).timeoutNext with
    | .nullfunc => s.dv.createTimer i
    | .disassoc => (s.dv.detach i).createTimer i
    | .deauth | .remove => s.dv.free i := by
  unfold timerEscalates
  dsimp only
  cases (s.sta i).timeoutNext with
  | nullfunc =>
    dsimp only
    split
    · rw [createStaTimer_dv, dv_modSta_of_eq]
      rfl
    · rw [createStaTimer_dv, dv_modSta_of_eq, sendMgmtFrame_dv]
      rfl
  | disassoc =>
    rw [if_neg (by simp), createStaTimer_dv, dv_modSta_of_eq, changeStaDisassocToDeauth_false_dv,
      sendMgmtFrame_dv]
    rfl
  | deauth => rw [if_neg (by simp), apStaInfoFree_dv, sendMgmtFrame_dv]
  | remove => rw [if_neg (by simp), apStaInfoFree_dv, sendMgmtFrame_dv]

/-- `ap_handle_timer`. -/
theorem apHandleTimer_dv (s : ApInfo cfg) (i : StaIdx cfg) (hostApiActive : Bool) (inactive : ℤ) :
    (apHandleTimer s i hostApiActive inactive).dv =
      if !(s.sta i).valid then s.dv.endTimer i
      else match timerAct (s.sta i) hostApiActive inactive with
        | .rearm => (s.dv.endTimer i).createTimer i
        | .detach => ((s.dv.endTimer i).detach i).createTimer i
        | .free => (s.dv.endTimer i).free i := by
  unfold apHandleTimer
  extract_lets s₁ r s₂
  have hsta : s₁.sta = s.sta := rfl
  have h₂ : s₂.dv = s.dv.endTimer i :=
    dv_modSta_of_eq (drvEntry_of_core (timerForgives_core _ _))
  rw [hsta]
  by_cases hv : (!(s.sta i).valid) = true
  · rw [if_pos hv, if_pos hv]
    rfl
  rw [if_neg hv, if_neg hv]
  unfold timerAct
  by_cases hremove : (s.sta i).timeoutNext = .remove
  · rw [if_pos hremove, if_pos hremove]
    exact apStaInfoFree_dv s₁ i
  rw [if_neg hremove, if_neg hremove]
  by_cases hhost : (!hostApiActive) = true
  · rw [if_pos hhost, if_pos hhost]
    rfl
  rw [if_neg hhost, if_neg hhost]
  have hr : timerForgives (s.sta i) inactive = r := rfl
  rw [hr]
  dsimp only
  by_cases hnext : r.1 = true
  · rw [if_pos hnext, if_pos hnext, createStaTimer_dv, h₂]
  · rw [if_neg hnext, if_neg hnext, timerEscalates_dv, h₂, modSta_sta_self]
    cases r.2.timeoutNext <;> rfl

theorem rxHStaProcess_dv (s : ApInfo cfg) (rx : RxDesp cfg) : (rxHStaProcess s rx).dv = s.dv := by
  have hps : ∀ (b : Bool) n, (s.ctl.setPs rx.sta b n).dv = s.dv := fun b n => dv_modSta_of_eq rfl
  have hend : (apStaPsEnd s rx.sta).dv = s.dv := by
    change (apStaPsEnd s rx.sta).ctl.dv = s.dv
    rw [apStaPsEnd_ctl]
    split
    · exact hps false _
    · rfl
  have hstart : (apStaPsStart s rx.sta).dv = s.dv := by
    change (apStaPsStart s rx.sta).ctl.dv = s.dv
    rw [apStaPsStart_ctl]
    exact hps true _
  unfold rxHStaProcess
  dsimp only
  split_ifs
  · exact hend
  · rfl
  · rw [dv_of_ctl (recalcTimGenBeacon_ctl _ _), hstart]
  · exact hstart
  · rfl

/-- A received frame does not concern the driver. -/
theorem rxFrame_dv (s : ApInfo cfg) (sa : EtherAddr) (kind : RxKind) (pm : Bool) (up : ℕ) :
    (rxFrame s sa kind pm up).dv = s.dv := by
  have hreceived : ∀ (s : ApInfo cfg) rx, (dataNeedToBeReceived s rx).dv = s.dv := by
    intro s rx
    have hpoll := dv_of_ctl (rxHUapsdAndPspoll_ctl s rx)
    unfold dataNeedToBeReceived
    split
    · split
      · next he =>
        rw [he] at hpoll
        rw [rxHStaProcess_dv, hpoll]
      · next he =>
        rw [he] at hpoll
        exact hpoll
    · rfl
  unfold rxFrame
  split
  · exact sendMgmtFrame_dv s sa
  · next i _ =>
    extract_lets s₁ s₂ rx
    have h₁ : s₁.dv = s.dv := dv_modSta_of_eq rfl
    have h₂ : s₂.dv = s₁.dv := by
      dsimp only [s₂]
      split
      · rfl
      · exact sendMgmtFrame_dv s₁ sa
    rw [hreceived, h₂, h₁]

end Events

/-! ## Moves -/

section Moves

/-- What can happen to the view in one piece. -/
inductive DrvMove : DrvView cfg → DrvView cfg → Prop
  | detach (v : DrvView cfg) (i : StaIdx cfg) : DrvMove v (v.detach i)
  | attach (v : DrvView cfg) (i : StaIdx cfg) : DrvMove v (v.attach i)
  | free (v : DrvView cfg) (i : StaIdx cfg) : DrvMove v (v.free i)
  | take {v : DrvView cfg} (i : StaIdx cfg) (addr : EtherAddr) :
    (v.sta i).valid = false → DrvMove v (v.take i addr (v.newWsid i))
  /-- A timer fires and is armed anew. -/
  | rearm {v : DrvView cfg} (i : StaIdx cfg) :
    (v.sta i).valid = true → DrvMove v ((v.endTimer i).createTimer i)
  /-- A timer fires that belongs to nobody. -/
  | fire {v : DrvView cfg} (i : StaIdx cfg) : (v.sta i).valid = false → DrvMove v (v.endTimer i)
  /-- A timer fires, or is cancelled, and its station leaves. -/
  | expire (v : DrvView cfg) (i : StaIdx cfg) : DrvMove v ((v.endTimer i).free i)

/-- An operation is a sequence of moves. -/
abbrev DrvMoves : DrvView cfg → DrvView cfg → Prop := Relation.ReflTransGen DrvMove

/-- What every move keeps, moves keep. -/
theorem DrvMoves.keep {I : DrvView cfg → Prop} (hmove : ∀ {v v'}, DrvMove v v' → I v → I v')
    {v v' : DrvView cfg} (h : DrvMoves v v') (hv : I v) : I v' := by
  induction h with
  | refl => exact hv
  | tail _ hstep ih => exact hmove hstep ih

theorem DrvMoves.of_eq {v v' : DrvView cfg} (h : v' = v) : DrvMoves v v' := h ▸ .refl

theorem DrvMoves.remove (v : DrvView cfg) (i : StaIdx cfg) : DrvMoves v (v.remove i) :=
  .tail (.single (.detach v i)) (.expire _ i)

theorem evictSilent_moves (s : ApInfo cfg) : DrvMoves s.dv (evictSilent s).dv := by
  have hremove : ∀ (s : ApInfo cfg) i, DrvMoves s.dv (removeSilent s i).dv := by
    intro s i
    rw [removeSilent_dv]
    exact .remove s.dv i
  unfold evictSilent
  extract_lets first s₁
  have h₁ : DrvMoves s.dv s₁.dv := by
    dsimp only [s₁]
    split
    · exact hremove s first
    · exact .refl
  split
  · split
    · next i _ => exact h₁.trans (hremove s₁ i)
    · exact h₁
  · exact h₁

theorem mlmeRxAuth_moves (s : ApInfo cfg) (r : AuthReq) : DrvMoves s.dv (mlmeRxAuth s r).1.dv := by
  rw [mlmeRxAuth_dv]
  split
  · exact .refl
  · split
    · split
      · exact .refl
      · exact .single (.free s.dv _)
    · split
      · exact evictSilent_moves s
      · next i hi =>
        have htake := (evictSilent_moves s).tail
          (.take i r.sa (getNewSta_valid hi))
        dsimp only
        split
        · exact htake
        · exact htake.tail (.free _ i)

theorem apHandleTimer_moves (s : ApInfo cfg) (i : StaIdx cfg) (hostApiActive : Bool)
    (inactive : ℤ) : DrvMoves s.dv (apHandleTimer s i hostApiActive inactive).dv := by
  rw [apHandleTimer_dv]
  cases hv : (s.sta i).valid with
  | false => exact .single (.fire i hv)
  | true =>
    rw [if_neg (by simp)]
    split
    · exact .single (.rearm i hv)
    · have hdetached : ((s.dv.detach i).sta i).valid = true := by
        have hview : (s.dv.sta i).valid = true := hv
        simpa [DrvView.detach, DrvView.setSta] using hview
      exact .tail (.single (.detach s.dv i)) (.rearm i hdetached)
    · exact .single (.expire s.dv i)

/-- Every event is a sequence of moves. -/
theorem apStep_moves (s : ApInfo cfg) (e : ApEvent cfg) : DrvMoves s.dv (apStep s e).1.dv := by
  cases e with
  | auth r => exact mlmeRxAuth_moves s r
  | assoc r =>
    change DrvMoves s.dv (handleAssoc s r).1.dv
    rw [handleAssoc_dv]
    split_ifs
    · exact .refl
    · split
      · exact .refl
      · split_ifs
        · exact .refl
        · exact .single (.attach s.dv _)
        · exact .single (.free s.dv _)
  | disassoc longEnough sa =>
    dsimp only [apStep]
    split
    · rw [mlmeRxDisassoc_dv]
      split
      · exact .refl
      · exact .tail (.single (.detach s.dv _)) (.free _ _)
    · exact .refl
  | deauth longEnough sa =>
    dsimp only [apStep]
    split
    · rw [mlmeRxDeauth_dv]
      split
      · exact .refl
      · exact .single (.free s.dv _)
    · exact .refl
  | setAuthorized addr authorized =>
    dsimp only [apStep]
    split
    · exact .of_eq (apStaSetAuthorized_dv s _ _)
    · exact .refl
  | disconnect addr =>
    dsimp only [apStep]
    split
    · rw [removeSilent_dv]
      exact .remove s.dv _
    · exact .refl
  | timer i hostApiActive inactive => exact apHandleTimer_moves s i hostApiActive inactive
  | rx sa kind pm up => exact .of_eq (rxFrame_dv s sa kind pm up)
  | tx now f bAPFrame pollFlag =>
    exact .of_eq (dv_of_ctl (dataCouldBeSend_ctl now s f bAPFrame pollFlag))
  | pollResponse i => exact .of_eq (dv_of_ctl (staPsDeliverPollResponse_ctl s i))
  | uapsd i => exact .of_eq (dv_of_ctl (staPsDeliverUapsd_ctl s i))
  | cleanup now => exact .of_eq (dv_of_ctl (staInfoCleanup_ctl now s))
  | drvRemove i =>
    change DrvMoves s.dv (drvRemove s i).dv
    rw [drvRemove_dv]
    exact .single (.detach s.dv i)
  | free i =>
    change DrvMoves s.dv (apStaInfoFree s i).dv
    rw [apStaInfoFree_dv]
    exact .single (.free s.dv i)

/-- What holds of the view at the start and survives every move holds in every state. -/
theorem DrvMoves.run {I : DrvView cfg → Prop} (start : I (initAp cfg).dv)
    (hmove : ∀ {v v'}, DrvMove v v' → I v → I v') (es : List (ApEvent cfg)) :
    I (Machine.run apStep (initAp cfg) es).1.dv :=
  Machine.run_induction (P := fun s _ _ => I s.dv) start
    (fun s _ _ e hs => (apStep_moves s e).keep hmove hs) es

end Moves

/-! ## One timer for each station -/

section Timers

/-- A station that is there has one pending timer, a slot without a station has none. -/
def DrvView.OneTimer (v : DrvView cfg) : Prop :=
  ∀ i, v.drv.staTimer i = if (v.sta i).valid then 1 else 0

/-- One station and its timers change. -/
theorem DrvView.OneTimer.update {v v' : DrvView cfg} (h : v.OneTimer) (i : StaIdx cfg)
    (hsta : ∀ j, j ≠ i → (v'.sta j).valid = (v.sta j).valid)
    (htimer : ∀ j, j ≠ i → v'.drv.staTimer j = v.drv.staTimer j)
    (hi : v'.drv.staTimer i = if (v'.sta i).valid then 1 else 0) : v'.OneTimer := by
  intro j
  by_cases hj : j = i
  · subst hj
    exact hi
  · rw [htimer j hj, hsta j hj]
    exact h j

/-- A station leaves with at most one timer. -/
theorem DrvView.OneTimer.leave {v : DrvView cfg} (h : v.OneTimer) (i : StaIdx cfg) (n : ℕ)
    (hn : n ≤ 1) :
    DrvView.OneTimer (DrvView.leave
      { v with drv := { v.drv with staTimer := Function.update v.drv.staTimer i n } } i) := by
  have hzero : n - 1 = 0 := by omega
  refine h.update i (fun j hj => ?_) (fun j hj => ?_) ?_
  · simp [DrvView.leave, setSta, endTimer, oper, DrvView.endSessions, hj]
  · simp [DrvView.leave, setSta, endTimer, oper, DrvView.endSessions, hj]
  · simp [DrvView.leave, setSta, endTimer, oper, DrvView.endSessions, DrvEntry.blank, hzero]

/-- Every move keeps that. The timer that fires is no longer pending, and the station that had it
has been given another one or has left. -/
theorem DrvMove.oneTimer {v v' : DrvView cfg} (hmove : DrvMove v v') (h : v.OneTimer) :
    v'.OneTimer := by
  cases hmove with
  | detach i =>
    refine h.update i (fun j hj => ?_) (fun j _ => rfl) ?_
    · simp [DrvView.detach, DrvView.setSta, DrvView.oper, hj]
    · simpa [DrvView.detach, DrvView.setSta, DrvView.oper] using h i
  | attach i => exact h
  | free i =>
    unfold DrvView.free
    split
    · next hv =>
      have hleave := h.leave i (v.drv.staTimer i) (by rw [h i, if_pos hv])
      rwa [Function.update_eq_self] at hleave
    · exact h
  | take i addr hv =>
    have hi := h i
    rw [hv, if_neg Bool.false_ne_true] at hi
    refine h.update i (fun j hj => ?_) (fun j hj => ?_) ?_
    · simp [DrvView.take, DrvView.setSta, DrvView.createTimer, hj]
    · simp [DrvView.take, DrvView.setSta, DrvView.createTimer, hj]
    · simp [DrvView.take, DrvView.setSta, DrvView.createTimer, hi]
  | rearm i hv =>
    have hi := h i
    rw [if_pos hv] at hi
    refine h.update i (fun _ _ => rfl) (fun j hj => ?_) ?_
    · simp [DrvView.endTimer, DrvView.createTimer, hj]
    · simp [DrvView.endTimer, DrvView.createTimer, hi, hv]
  | fire i hv =>
    have hi := h i
    rw [hv, if_neg Bool.false_ne_true] at hi
    refine h.update i (fun _ _ => rfl) (fun j hj => ?_) ?_
    · simp [DrvView.endTimer, hj]
    · simp [DrvView.endTimer, hi, hv]
  | expire i =>
    unfold DrvView.free
    have hi := h i
    split
    · exact h.leave i _ (by split at hi <;> omega)
    · next hv =>
      have hnone : (v.sta i).valid = false := Bool.eq_false_iff.mpr hv
      rw [hnone, if_neg Bool.false_ne_true] at hi
      refine h.update i (fun _ _ => rfl) (fun j hj => ?_) ?_
      · simp [DrvView.endTimer, hj]
      · simp [DrvView.endTimer, hi, hnone]

/-- In every state the access point reaches, whatever requests come and whenever timers fire, a
station that is there has one pending timer, and a slot without a station has none. -/
theorem apRun_one_timer (cfg : ApCfg) (es : List (ApEvent cfg)) (i : StaIdx cfg) :
    (Machine.run apStep (initAp cfg) es).1.drv.staTimer i
      = if ((Machine.run apStep (initAp cfg) es).1.sta i).valid then 1 else 0 :=
  DrvMoves.run (I := DrvView.OneTimer) (fun _ => rfl) (fun hmove h => hmove.oneTimer h) es i

end Timers

end Fullmac.Ap
