import Fullmac.Ap.PowerSave
import Fullmac.Ap.RawInside

/-!
# What a received frame means

The handlers on bytes do what the handlers of `Mlme` do on the request the bytes stand for:
`rxHandleApMode_event` says so for one frame, `rawRun_events` for any number of them, between
whatever else happens. So what is proved of every run of events is true of every run of frames;
`rawRun_psAccounted` is an example.

The request is what a reader of the whole frame would make of it (`frameEvent`). The handlers look
at much less of it: not at the elements of a station that is not authenticated, not at a challenge
that nobody asked for.
-/

namespace Fullmac.Ap.Raw

open Bytes (Mem slice getU16)
open Reads
open Tlv

variable {cfg : ApCfg} {n : ℕ} {m : Mem}

/-! ## Requests -/

/-- What elements say. -/
def elemsAt (conf : WpaAuthConfig) (m : Mem) (elems : Elements) : Elems where
  ssid := (elems .ssid).map (Elem.bytes m)
  wmm := (elems .wmm).map fun e => (m (e.off + 6)).toNat
  suppRates := (elems .suppRates).map (Elem.bytes m)
  extSuppRates := (elems .extSuppRates).map (Elem.bytes m)
  htCapab := (elems .htCapabilities).map fun e => getU16 m e.off
  rsn := (pickWpaIe conf elems).map fun e => val m (wpaValidateWpaIe conf (e.off - 2) (e.len + 2))

/-- The elements of an association request, if they can be parsed. -/
def elemsOf (conf : WpaAuthConfig) (m : Mem) (ies iesLen : ℕ) : Option Elems :=
  let p := val m (parseElems ies iesLen)
  if p.1 = .failed then none else some (elemsAt conf m p.2)

/-- The association request. -/
def assocReqOf (env : RxEnv) (m : Mem) (n : ℕ) (reassoc : Bool) : AssocReq where
  longEnough := decide (assocIes reassoc ≤ n)
  sa := addrAt m saOff
  reassoc := reassoc
  capabInfo := getU16 m 24
  listenInterval := getU16 m 26
  elems := elemsOf env.conf m (assocIes reassoc) (n - assocIes reassoc)
  tkipCountermeasures := env.tkipCountermeasures

/-- The authentication frame. -/
def authReqOf (env : RxEnv) (m : Mem) (n : ℕ) : AuthReq where
  longEnough := decide (hdrLen + 6 ≤ n)
  sa := addrAt m saOff
  authAlg := getU16 m 24
  transaction := getU16 m 26
  isWep := (getU16 m 0).testBit 14
  challenge := if val m (hasChallenge n) then some (slice m 32 128) else none
  tkipCountermeasures := env.tkipCountermeasures
  newChallenge := env.newChallenge

/-- What a management frame is to the stations. -/
def handlerEvent (cfg : ApCfg) (env : RxEnv) (m : Mem) (n : ℕ) : Handler → Option (ApEvent cfg)
  | .assoc reassoc => some (.assoc (assocReqOf env m n reassoc))
  | .auth => some (.auth (authReqOf env m n))
  | .disassoc => some (.disassoc (decide (hdrLen + 2 ≤ n)) (addrAt m saOff))
  | .deauth => some (.deauth (decide (hdrLen + 2 ≤ n)) (addrAt m saOff))
  | .probe | .beacon | .idle => none

/-- What a received frame is to the stations. -/
def frameEvent (cfg : ApCfg) (env : RxEnv) (f : RxFrame) : Option (ApEvent cfg) :=
  let fc := getU16 f.data 0
  if f.f80211 ∧ fcType fc = 0 ∧ fcStype fc < 14 then
    handlerEvent cfg env f.data f.len (handlerOf (fcStype fc))
  else none

/-- One event, or none. -/
def apStep? (s : ApInfo cfg) : Option (ApEvent cfg) → ApInfo cfg × List Reply
  | none => (s, [])
  | some e => apStep s e

/-! ## Elements -/

section Elements

variable {conf : WpaAuthConfig} {st : Station cfg}

theorem val_checkWmm (wmm : Option Elem) :
    val m (checkWmm st wmm) = Ap.checkWmm st (wmm.map fun e => (m (e.off + 6)).toNat) := by
  cases wmm <;> rfl

theorem val_copyStaHtCapab (ht : Option Elem) :
    val m (copyStaHtCapab st ht) = Ap.copyStaHtCapab st (ht.map fun e => getU16 m e.off) := by
  cases ht with
  | none => rfl
  | some e =>
    simp only [copyStaHtCapab, val_ite, val_bind, val_pure, val_readU16, Ap.copyStaHtCapab,
      Option.map_some]
    split_ifs <;> rfl

theorem val_copyExtSuppRates_eq (rates : List UInt8) (ext : Option Elem) :
    val m (copyExtSuppRates st rates ext)
      = match ext.map (Elem.bytes m) with
        | none => (.success, { st with supportedRates := rates })
        | some ext =>
          if 32 < rates.length + ext.length then
            (.unspecifiedFailure, { st with supportedRates := rates })
          else (.success, { st with supportedRates := rates ++ ext }) := by
  cases ext with
  | none => rfl
  | some e =>
    simp only [copyExtSuppRates, val_ite, val_bind, val_pure, val_readSlice, Option.map_some,
      Elem.length_bytes]
    rfl

theorem val_copySuppRates_eq (elems : Elements) :
    val m (copySuppRates st elems) = Ap.copySuppRates st (elemsAt conf m elems) := by
  rw [copySuppRates, Ap.copySuppRates, elemsAt]
  cases elems .suppRates with
  | none => rfl
  | some supp =>
    simp only [val_ite, val_bind, val_pure, val_readSlice, val_copyExtSuppRates_eq,
      Option.map_some, Elem.length_bytes, Bytes.length_slice]
    rfl

theorem val_checkWpaIe (elems : Elements) :
    val m (checkWpaIe conf elems)
      = if conf.wpa = 0 then .success else (elemsAt conf m elems).rsn.getD .invalidIe := by
  rw [checkWpaIe, val_ite, val_pure, elemsAt]
  cases pickWpaIe conf elems <;> rfl

theorem val_checkElems (hwpa : cfg.wpa = decide (conf.wpa ≠ 0)) (elems : Elements) :
    val m (checkElems conf st elems)
      = Ap.checkAssocIes st (some (elemsAt conf m elems)) := by
  have hssid : (elemsAt conf m elems).ssid = (elems .ssid).map (Elem.bytes m) := rfl
  have hwmm : Ap.checkWmm st (elemsAt conf m elems).wmm = val m (checkWmm st (elems .wmm)) :=
    (val_checkWmm _).symm
  have hht : ∀ st : Station cfg, Ap.copyStaHtCapab st (elemsAt conf m elems).htCapab
      = val m (copyStaHtCapab st (elems .htCapabilities)) := fun st => (val_copyStaHtCapab _).symm
  simp only [checkElems, Ap.checkAssocIes, val_bind, val_ite, val_pure, val_checkSsid,
    val_checkWpaIe, ← val_copySuppRates_eq, hssid, hwmm, hht, hwpa]
  by_cases hown : (elems .ssid).map (Elem.bytes m) = some cfg.ssid
  · by_cases hzero : conf.wpa = 0 <;> simp [hown, hzero]
  · simp [hown]

theorem val_checkAssocIes (hwpa : cfg.wpa = decide (conf.wpa ≠ 0)) (ies iesLen : ℕ) :
    val m (checkAssocIes conf st ies iesLen)
      = Ap.checkAssocIes st (elemsOf conf m ies iesLen) := by
  rw [checkAssocIes, val_bind, val_ite, val_pure, val_checkElems hwpa, elemsOf]
  split_ifs <;> rfl

end Elements

/-! ## Handlers -/

theorem val_acceptAssoc (s : ApInfo cfg) (i : StaIdx cfg) (r : AssocReq)
    (c : Status × Station cfg) :
    val m (acceptAssoc s i r c)
      = if c.1 ≠ .success then (c.1, s.modSta i fun _ => c.2)
        else
          match hostapdGetAid (s.modSta i fun _ => c.2) i with
          | none => (.unableToHandleNewSta, s.modSta i fun _ => c.2)
          | some s => (.success, apSocCmdStaOper (recordAssoc s i r) i true) := by
  rw [acceptAssoc, val_ite]
  cases hostapdGetAid (s.modSta i fun _ => c.2) i <;> rfl

/-- Of the request, only the fixed fields are recorded. -/
theorem recordAssoc_congr (s : ApInfo cfg) (i : StaIdx cfg) {r r' : AssocReq}
    (hcapab : r'.capabInfo = r.capabInfo) (hlisten : r'.listenInterval = r.listenInterval) :
    recordAssoc s i r' = recordAssoc s i r := by
  rw [recordAssoc, recordAssoc, hcapab, hlisten]

theorem val_tryAssoc {env : RxEnv} (hwpa : cfg.wpa = decide (env.conf.wpa ≠ 0))
    (s : ApInfo cfg) (i : StaIdx cfg) {r r' : AssocReq}
    (hcapab : r'.capabInfo = r.capabInfo) (hlisten : r'.listenInterval = r.listenInterval)
    (htkip : r'.tkipCountermeasures = env.tkipCountermeasures)
    (helems : r'.elems = elemsOf env.conf m (assocIes r.reassoc) (n - assocIes r.reassoc)) :
    val m (tryAssoc s env n i r) = Ap.tryAssoc s i r' := by
  rw [tryAssoc, val_ite, val_ite, val_pure, val_pure, val_bind, val_acceptAssoc,
    val_checkAssocIes hwpa, ← helems, ← htkip, ← hlisten]
  simp only [← recordAssoc_congr _ i hcapab hlisten]
  rfl

theorem val_handleAssoc {env : RxEnv} (hwpa : cfg.wpa = decide (env.conf.wpa ≠ 0))
    (s : ApInfo cfg) (reassoc : Bool) :
    val m (handleAssoc s env n reassoc) = Ap.handleAssoc s (assocReqOf env m n reassoc) := by
  have htry : ∀ i r, r.capabInfo = getU16 m 24 → r.listenInterval = getU16 m 26 →
      r.reassoc = reassoc →
      val m (tryAssoc s env n i r) = Ap.tryAssoc s i (assocReqOf env m n reassoc) := by
    rintro i r hcapab hlisten rfl
    exact val_tryAssoc hwpa s i hcapab.symm hlisten.symm rfl rfl
  rw [handleAssoc, Ap.handleAssoc, val_ite]
  by_cases hlen : n < assocIes reassoc
  · simp [assocReqOf, hlen, Nat.not_le_of_lt hlen]
  · rw [if_neg hlen, if_neg (by simp [assocReqOf, Nat.le_of_not_lt hlen])]
    simp only [val_bind, val_readU16, val_findStaByAddr]
    have hsa : (assocReqOf env m n reassoc).sa = addrAt m saOff := rfl
    rw [hsa]
    cases Ap.findStaByAddr s (addrAt m saOff) with
    | none => rfl
    | some i =>
      dsimp only
      rw [val_ite, val_bind, val_pure, htry i _ rfl rfl rfl]
      rfl

theorem slice_eq_toList_iff {off : ℕ} {a : EtherAddr} :
    slice m off 6 = a.toList ↔ addrAt m off = a := by
  have haddr : (addrAt m off).toList = slice m off 6 := by
    apply List.ext_getElem
    · simp
    · intro i _ _
      simp [addrAt, slice]
  rw [← haddr, Vector.toList_inj]

theorem val_authStatus (cfg : ApCfg) (env : RxEnv) :
    val m (authStatus cfg env (getU16 m 24) (getU16 m 26))
      = Ap.authStatus cfg (authReqOf env m n) := by
  simp only [authStatus, Ap.authStatus, val_ite, val_bind, val_pure, val_memcmp,
    slice_eq_toList_iff, decide_eq_true_eq]
  rfl

theorem val_authSharedKey (env : RxEnv) (st : Station cfg) :
    val m (authSharedKey st env (getU16 m 26) ((getU16 m 0).testBit 14)
        (if val m (hasChallenge n) then some 32 else none))
      = Ap.authSharedKey st (authReqOf env m n) := by
  have hchallenge : (authReqOf env m n).challenge
      = if val m (hasChallenge n) then some (slice m 32 128) else none := rfl
  have hwep : (authReqOf env m n).isWep = (getU16 m 0).testBit 14 := rfl
  unfold authSharedKey Ap.authSharedKey
  rw [val_ite, val_ite, val_pure, val_pure, hchallenge, hwep]
  refine if_congr Iff.rfl rfl (if_congr Iff.rfl rfl ?_)
  cases (getU16 m 0).testBit 14 with
  | false => rfl
  | true =>
    cases hc : st.challenge with
    | none => rfl
    | some c =>
      cases val m (hasChallenge n) with
      | false => rfl
      | true =>
        rw [if_pos rfl, if_pos rfl]
        by_cases hsame : slice m 32 128 = c
        · simp [hsame]
        · simp [hsame, Ne.symm hsame]

theorem val_sendAuthReply (s : ApInfo cfg) (status : Status) :
    val m (sendAuthReply s status)
      = (sendMgmtFrame s (addrAt m saOff), [.auth (addrAt m saOff) status]) := (rfl)

theorem val_admitSta (s : ApInfo cfg) (env : RxEnv) :
    val m (admitSta s env (getU16 m 24) (getU16 m 26) ((getU16 m 0).testBit 14)
        (if val m (hasChallenge n) then some 32 else none))
      = match apStaInfoAdd s (addrAt m saOff) with
        | (none, s) =>
          (sendMgmtFrame s (addrAt m saOff), [.auth (addrAt m saOff) .unableToHandleNewSta])
        | (some i, s) =>
          let a := Ap.authenticate (s.sta i) (authReqOf env m n)
          let s := s.modSta i fun _ => a.2
          let s := if a.1 = .success then s else apStaInfoFree s i
          (sendMgmtFrame s (addrAt m saOff), [.auth (addrAt m saOff) a.1]) := by
  rw [admitSta, val_bind, val_bind, val_readAddr]
  rcases apStaInfoAdd s (addrAt m saOff) with ⟨_ | i, s'⟩
  · exact val_sendAuthReply s' _
  · have hauth : val m (authenticate (s'.sta i) env (getU16 m 24) (getU16 m 26)
        ((getU16 m 0).testBit 14) (if val m (hasChallenge n) then some 32 else none))
          = Ap.authenticate (s'.sta i) (authReqOf env m n) := by
      rw [authenticate, Ap.authenticate, val_ite, val_authSharedKey]
      rfl
    dsimp only
    rw [val_bind, hauth, val_sendAuthReply]

theorem val_rxAuth (s : ApInfo cfg) (env : RxEnv) :
    val m (rxAuth s env n) = mlmeRxAuth s (authReqOf env m n) := by
  have hlong : (authReqOf env m n).longEnough = decide (hdrLen + 6 ≤ n) := rfl
  rw [rxAuth, mlmeRxAuth, val_ite, hlong]
  by_cases hlen : n < hdrLen + 6
  · rw [if_pos hlen, if_pos (by simp [Nat.not_le_of_lt hlen])]
    rfl
  · rw [if_neg hlen, if_neg (by simp [Nat.le_of_not_lt hlen])]
    simp only [val_bind, val_readU16, val_ite, val_authStatus (n := n), val_sendAuthReply,
      val_admitSta]
    rfl

theorem val_rxLeave (s : ApInfo cfg) (leave : ApInfo cfg → EtherAddr → ApInfo cfg) :
    val m (rxLeave s n leave)
      = (if decide (hdrLen + 2 ≤ n) then leave s (addrAt m saOff) else s, []) := by
  rw [rxLeave, val_ite]
  by_cases hlen : n < hdrLen + 2
  · rw [if_pos hlen, if_neg (by simp [Nat.not_le_of_lt hlen])]
    rfl
  · rw [if_neg hlen, if_pos (by simp [Nat.le_of_not_lt hlen])]
    rfl

theorem val_callHandler {env : RxEnv} (hwpa : cfg.wpa = decide (env.conf.wpa ≠ 0))
    (s : ApInfo cfg) (h : Handler) :
    val m (callHandler s env n h) = apStep? s (handlerEvent cfg env m n h) := by
  cases h with
  | assoc reassoc => exact val_handleAssoc hwpa s reassoc
  | auth => exact val_rxAuth s env
  | disassoc => exact val_rxLeave s mlmeRxDisassoc
  | deauth => exact val_rxLeave s mlmeRxDeauth
  | probe => rfl
  | beacon => rfl
  | idle => rfl

/-! ## Frames -/

/-- What handling a frame does to the stations is what handling its event does. -/
theorem rxHandleApMode_event {env : RxEnv} (hwpa : cfg.wpa = decide (env.conf.wpa ≠ 0))
    (s : ApInfo cfg) (f : RxFrame) :
    val f.data (rxHandleApMode s env f) = apStep? s (frameEvent cfg env f) := by
  rw [rxHandleApMode, frameEvent, val_ite]
  by_cases h80211 : f.f80211
  · rw [if_pos h80211, val_bind, val_readU16, val_ite]
    by_cases hmgmt : fcType (getU16 f.data 0) = 0 ∧ fcStype (getU16 f.data 0) < 14
    · rw [if_pos hmgmt, if_pos ⟨h80211, hmgmt⟩, val_bind, val_callHandler hwpa]
    · rw [if_neg hmgmt, if_neg fun h => hmgmt h.2]
      rfl
  · rw [if_neg h80211, if_neg fun h => h80211 h.1, val_bind, val_bind, val_ite]
    split_ifs <;> rfl

/-- What comes to the access point: a frame as it was received, or something else. -/
inductive RawEvent (cfg : ApCfg)
  | frame (env : RxEnv) (f : RxFrame)
  | other (e : ApEvent cfg)

/-- A frame is taken apart, anything else is an event already. -/
def rawStep (s : ApInfo cfg) : RawEvent cfg → ApInfo cfg × List Reply
  | .frame env f => val f.data (rxHandleApMode s env f)
  | .other e => apStep s e

/-- What it is to the stations. -/
def RawEvent.event? : RawEvent cfg → Option (ApEvent cfg)
  | .frame env f => frameEvent cfg env f
  | .other e => some e

/-- The WPA configuration that a frame meets is the one of the access point. -/
def RawEvent.Configured : RawEvent cfg → Prop
  | .frame env _ => cfg.wpa = decide (env.conf.wpa ≠ 0)
  | .other _ => True

theorem rawStep_event (s : ApInfo cfg) {e : RawEvent cfg} (h : e.Configured) :
    rawStep s e = apStep? s e.event? := by
  cases e with
  | frame env f => exact rxHandleApMode_event h s f
  | other e => rfl

/-- A run of frames is the run of their events. -/
theorem rawRun_events (s : ApInfo cfg) (es : List (RawEvent cfg)) (h : ∀ e ∈ es, e.Configured) :
    Machine.run rawStep s es = Machine.run apStep s (es.filterMap RawEvent.event?) := by
  induction es generalizing s with
  | nil => rfl
  | cons e es ih =>
    obtain ⟨he, hes⟩ := List.forall_mem_cons.mp h
    rw [Machine.run_cons, rawStep_event s he, ih _ hes, List.filterMap_cons]
    cases e.event? with
    | none => rfl
    | some e => rfl

/-- Whatever frames come in, buffered frames are accounted for. -/
theorem rawRun_psAccounted (cfg : ApCfg) (es : List (RawEvent cfg)) (h : ∀ e ∈ es, e.Configured) :
    PsAccounted (Machine.run rawStep (initAp cfg) es).1 := by
  rw [rawRun_events _ es h]
  exact PsInv.psAccounted (psInv_kept.run psInv_initAp _)

end Fullmac.Ap.Raw
