import Fullmac.Ap.Capabilities
import Fullmac.Ap.Port

/-!
# Who an association response goes to

`handle_assoc` has one exit: at the label `fail` the station of a request that was refused is freed,
and then `send_assoc_resp` takes the address and the AID of the reply from its slot.
`APStaInfo_free` has cleared the slot by then (`APStaInfo_StaReset`), so a refusal goes to the
address of all zeros. The sibling `ap_mlme_rx_auth` takes the address of its reply from the request.

A reply to a request answers it (`Answers`) if it goes to the station that sent the request, and
says success if and only if this station is associated afterwards. What decides is whether the
request passes all checks, here in the contents of the request (`AssocReq.Suits`), and whether there
is an AID for the station (`ApInfo.HasAid`).
-/

namespace Fullmac.Ap

open Table

variable {cfg : ApCfg} {s : ApInfo cfg} {i : StaIdx cfg}

/-! ## Which requests are accepted -/

/-- The rates of a request are there and fit into `supported_rates`. -/
def Elems.RatesFit (e : Elems) : Prop :=
  ∃ rates ∈ e.suppRates, rates.length + (e.extSuppRates.getD []).length ≤ 32

/-- What `check_assoc_ies` wants of the elements: the name of the network, rates that fit, and a
valid element for the protection that the network has. -/
def Elems.Suit (cfg : ApCfg) (e : Elems) : Prop :=
  e.ssid = some cfg.ssid ∧ e.RatesFit ∧ (cfg.wpa = true → e.rsn = some .success)

/-- What `handle_assoc` wants of a request. -/
def AssocReq.Suits (cfg : ApCfg) (r : AssocReq) : Prop :=
  r.tkipCountermeasures = false ∧ r.listenInterval ≤ maxListenInterval ∧
    ∃ e ∈ r.elems, e.Suit cfg

instance (e : Elems) : Decidable e.RatesFit :=
  inferInstanceAs (Decidable (∃ rates ∈ e.suppRates, _))

instance (e : Elems) : Decidable (e.Suit cfg) := inferInstanceAs (Decidable (_ ∧ _ ∧ _))

instance (r : AssocReq) : Decidable (r.Suits cfg) := inferInstanceAs (Decidable (_ ∧ _ ∧ _))

theorem copySuppRates_success_iff (st : Station cfg) (e : Elems) :
    (copySuppRates st e).1 = .success ↔ e.RatesFit := by
  unfold copySuppRates Elems.RatesFit
  cases e.suppRates with
  | none => simp
  | some rates =>
    cases e.extSuppRates with
    | none =>
      by_cases h : 32 < rates.length
      · simp [h]
      · simp [h]
        omega
    | some ext =>
      by_cases h : 32 < rates.length
      · simp [h]
        omega
      · by_cases hext : 32 < rates.length + ext.length
        · simp [h, hext]
        · simp [h, hext]
          omega

theorem checkAssocIes_success_iff (st : Station cfg) (elems : Option Elems) :
    (checkAssocIes st elems).1 = .success ↔ ∃ e ∈ elems, e.Suit cfg := by
  cases elems with
  | none => simp [checkAssocIes]
  | some e =>
    have hrates := copySuppRates_success_iff (checkWmm st e.wmm) e
    by_cases hssid : e.ssid = some cfg.ssid
    · by_cases hcopy : (copySuppRates (checkWmm st e.wmm) e).1 = .success
      · have hfit := hrates.mp hcopy
        cases hwpa : cfg.wpa with
        | false => simp [checkAssocIes, Elems.Suit, hssid, hcopy, hwpa, hfit]
        | true =>
          cases hrsn : e.rsn <;>
            simp [checkAssocIes, Elems.Suit, hssid, hcopy, hwpa, hfit, hrsn]
      · have hnofit : ¬e.RatesFit := fun h => hcopy (hrates.mpr h)
        simp [checkAssocIes, Elems.Suit, hssid, hcopy, hnofit]
    · simp [checkAssocIes, Elems.Suit, hssid]

/-- A request is accepted if it passes the checks and there is an AID. -/
theorem tryAssoc_suits_iff (s : ApInfo cfg) (i : StaIdx cfg) (r : AssocReq) :
    (tryAssoc s i r).1 = .success ↔ r.Suits cfg ∧ s.HasAid i := by
  rw [tryAssoc_success_iff, AssocReq.Accepted, checkAssocIes_success_iff, ← AssocReq.Suits]

/-! ## The table afterwards -/

/-- The station with an address is there and associated. -/
def ApInfo.Associated (s : ApInfo cfg) (a : EtherAddr) : Prop :=
  ∃ j, (s.sta j).valid = true ∧ (s.sta j).assoc = true ∧ (s.sta j).addr = a

theorem associated_of_table {s' : ApInfo cfg} (h : s'.table = s.table) {a : EtherAddr} :
    s'.Associated a ↔ s.Associated a := by
  have htable : (∃ j, (s'.table.sta j).valid = true ∧ (s'.table.sta j).assoc = true ∧
      (s'.table.sta j).addr = a) ↔ ∃ j, (s.table.sta j).valid = true ∧
      (s.table.sta j).assoc = true ∧ (s.table.sta j).addr = a := by rw [h]
  exact htable

/-- The station with address `a` in slot `i` of the table. -/
def StaTable.Holds (t : StaTable cfg) (i : StaIdx cfg) (a : EtherAddr) : Prop :=
  (t.sta i).valid = true ∧ (t.sta i).addr = a

theorem StaTable.Holds.setCounted {a : EtherAddr} (h : s.table.Holds i a) (c : Counted) :
    (setCounted s i c).table.Holds i a := by
  rcases setCounted_cases s i c with he | ⟨-, he⟩
  · rwa [he]
  · rw [he]
    simpa [Holds] using h

theorem StaTable.Holds.apStaSetAuthorized {a : EtherAddr} (h : s.table.Holds i a)
    (hassoc : (s.table.sta i).assoc = true) :
    (apStaSetAuthorized s i true).table.Holds i a ∧
      ((Ap.apStaSetAuthorized s i true).table.sta i).assoc = true := by
  rcases apStaSetAuthorized_cases s i true with ⟨-, he⟩ | ⟨-, -, he⟩ | ⟨-, hfalse, -⟩
  · rw [he]
    exact ⟨h, hassoc⟩
  · rw [he]
    simpa [Holds] using And.intro h hassoc
  · cases hfalse

/-- A station whose request is recorded is associated and keeps its place and its address. -/
theorem recordAssoc_holds {a : EtherAddr} (h : s.table.Holds i a) (r : AssocReq) :
    (recordAssoc s i r).table.Holds i a ∧ ((recordAssoc s i r).table.sta i).assoc = true := by
  refine recordAssoc_rule (P := fun s => s.table.Holds i a)
    (Q := fun s => s.table.Holds i a ∧ (s.table.sta i).assoc = true)
    (fun hs hf _ => ?_) (fun hs c => hs.setCounted c) (fun {s} hs => ?_)
    (fun hs => hs.1.apStaSetAuthorized hs.2) (fun hs => ?_) h r
  · rwa [table_modSta_of_eq (entry_of_core hf)]
  · rw [table_modSta]
    simp only [StaTable.Holds, Function.update_self]
    exact ⟨hs, rfl⟩
  · rwa [table_modSta_of_eq rfl]

theorem tryAssoc_associated {a : EtherAddr} (h : s.table.Holds i a) {r : AssocReq}
    (hok : (tryAssoc s i r).1 = .success) :
    (tryAssoc s i r).2.table.Holds i a ∧ ((tryAssoc s i r).2.table.sta i).assoc = true := by
  rcases tryAssoc_cases s i r with ⟨hne, -⟩ | ⟨s', hget, he⟩
  · exact absurd hok hne
  rw [he, apSocCmdStaOper_table]
  refine recordAssoc_holds ?_ r
  have hcore := entry_of_core (checkAssocIes_core (s.sta i) r.elems)
  obtain ⟨-, n, hself⟩ := hostapdGetAid_sta hget
  rw [modSta_sta_self] at hself
  have hvalid : (s'.sta i).valid = (s.sta i).valid := by
    rw [hself]
    exact congrArg StaEntry.valid hcore
  have haddr : (s'.sta i).addr = (s.sta i).addr := by
    rw [hself]
    exact congrArg StaEntry.addr hcore
  exact ⟨hvalid.trans h.1, haddr.trans h.2⟩

/-- Refusing a request changes nothing in the table yet. -/
theorem tryAssoc_refused_table {r : AssocReq} (h : (tryAssoc s i r).1 ≠ .success) :
    (tryAssoc s i r).2.table = s.table := by
  rcases tryAssoc_cases s i r with ⟨-, he | he⟩ | ⟨s', -, he⟩
  · rw [he]
  · rw [he]
    exact table_modSta_of_eq (entry_of_core (checkAssocIes_core _ _))
  · rw [he] at h
    exact absurd rfl h

/-- A station that is freed is gone: its slot is blank, and nobody else has its address. -/
theorem apStaInfoFree_not_associated {a : EtherAddr} (hinv : TableInv s.table)
    (h : s.table.Holds i a) :
    ((apStaInfoFree s i).sta i).addr = Vector.replicate 6 0 ∧
      ¬(apStaInfoFree s i).Associated a := by
  obtain ⟨-, hsta, -⟩ := apStaInfoFree_touches hinv.toTallies h.1
  have hself : (apStaInfoFree s i).table.sta i = (resetStation : Station cfg).entry := by
    rw [hsta, Function.update_self]
  refine ⟨congrArg StaEntry.addr hself, ?_⟩
  rintro ⟨j, hvalid, -, haddr⟩
  have hvalid' : ((apStaInfoFree s i).table.sta j).valid = true := hvalid
  have haddr' : ((apStaInfoFree s i).table.sta j).addr = a := haddr
  have hji : j ≠ i := by
    rintro rfl
    rw [hself] at hvalid'
    cases hvalid'
  rw [hsta, Function.update_of_ne hji] at hvalid' haddr'
  exact hji (hinv.addr_inj j i hvalid' h.1 (haddr'.trans h.2.symm))

/-! ## The reply -/

/-- There is one reply to a request; it goes to the station that sent the request, and says success
if and only if this station is associated afterwards. -/
def Answers (r : AssocReq) (t : ApInfo cfg × List Reply) : Prop :=
  ∃ da aid status, t.2 = [.assoc da aid r.reassoc status] ∧ da = r.sa ∧
    (status = .success ↔ t.1.Associated r.sa)

theorem handleAssoc_answers_iff_of_inv (hinv : TableInv s.table) {r : AssocReq}
    (hlen : r.longEnough = true) (hfind : findStaByAddr s r.sa = some i)
    (hauth : (s.sta i).auth = true) :
    Answers r (handleAssoc s r) ↔
      r.Suits cfg ∧ s.HasAid i ∨ r.sa = Vector.replicate 6 0 := by
  have hholds : s.table.Holds i r.sa := ⟨findStaByAddr_valid hfind, findStaByAddr_addr hfind⟩
  rw [← tryAssoc_suits_iff]
  unfold handleAssoc
  simp only [hlen, hfind, hauth, Bool.not_true, Bool.false_eq_true, if_false]
  by_cases hok : (tryAssoc s i r).1 = .success
  · obtain ⟨htry, hassoc⟩ := tryAssoc_associated hholds hok
    rw [if_pos hok]
    refine iff_of_true ⟨_, _, _, rfl, htry.2, iff_of_true hok ?_⟩ (.inl hok)
    rw [associated_of_table (table_of_ctl (sendMgmtFrame_ctl _ _))]
    exact ⟨i, htry.1, hassoc, htry.2⟩
  · have htable := tryAssoc_refused_table hok
    obtain ⟨haddr, hgone⟩ := apStaInfoFree_not_associated (htable ▸ hinv) (htable ▸ hholds)
    rw [if_neg hok, haddr]
    constructor
    · rintro ⟨da, aid, status, he, hda, -⟩
      cases he
      exact .inr hda.symm
    · rintro (h | hzero)
      · exact absurd h hok
      · refine ⟨_, _, _, rfl, hzero.symm, iff_of_false hok ?_⟩
        rwa [associated_of_table (table_of_ctl (sendMgmtFrame_ctl _ _))]

/-- In every state the access point reaches, a request of an authenticated station is answered if it
passes all checks and there is an AID for the station, and otherwise only when the station has the
address of all zeros. -/
theorem handleAssoc_answers_iff (es : List (ApEvent cfg)) {r : AssocReq}
    (hlen : r.longEnough = true)
    (hfind : findStaByAddr (Machine.run apStep (initAp cfg) es).1 r.sa = some i)
    (hauth : ((Machine.run apStep (initAp cfg) es).1.sta i).auth = true) :
    Answers r (handleAssoc (Machine.run apStep (initAp cfg) es).1 r) ↔
      r.Suits cfg ∧ (Machine.run apStep (initAp cfg) es).1.HasAid i ∨
        r.sa = Vector.replicate 6 0 :=
  handleAssoc_answers_iff_of_inv (tableInv_kept.run tableInv_initAp es) hlen hfind hauth

/-- A station authenticates. -/
def oneAuth : List (ApEvent openAp) := (sleeperEvents (Vector.replicate 6 4)).take 1

/-- It then asks to join a network. -/
def joinReq (ssid : List UInt8) : AssocReq where
  longEnough := true
  sa := Vector.replicate 6 4
  reassoc := false
  capabInfo := 0
  listenInterval := 10
  elems := some { ssid := some ssid, wmm := none, suppRates := some [2], extSuppRates := none
                  htCapab := none, rsn := none }
  tkipCountermeasures := false

theorem handleAssoc_answers_joinReq :
    Answers (joinReq [])
      (handleAssoc (Machine.run apStep (initAp openAp) oneAuth).1 (joinReq [])) :=
  (handleAssoc_answers_iff (i := ⟨0, Nat.two_pos⟩) oneAuth rfl (by decide +kernel)
    (by decide +kernel)).mpr (.inl (by decide +kernel))

/-- A request for another network is refused, and the station does not hear of it. -/
theorem handleAssoc_not_answers :
    ¬∀ (es : List (ApEvent openAp)) (r : AssocReq) (i : StaIdx openAp), r.longEnough = true →
      findStaByAddr (Machine.run apStep (initAp openAp) es).1 r.sa = some i →
      ((Machine.run apStep (initAp openAp) es).1.sta i).auth = true →
      Answers r (handleAssoc (Machine.run apStep (initAp openAp) es).1 r) := by
  intro h
  have hfind : findStaByAddr (Machine.run apStep (initAp openAp) oneAuth).1 (joinReq [1]).sa
      = some ⟨0, Nat.two_pos⟩ := by decide +kernel
  have hauth : ((Machine.run apStep (initAp openAp) oneAuth).1.sta ⟨0, Nat.two_pos⟩).auth
      = true := by decide +kernel
  have hanswers := h oneAuth (joinReq [1]) _ rfl hfind hauth
  rw [handleAssoc_answers_iff_of_inv (tableInv_kept.run tableInv_initAp oneAuth) rfl hfind hauth]
    at hanswers
  revert hanswers
  decide +kernel

end Fullmac.Ap
