import Fullmac.Ap.Counters
import Fullmac.Ap.PowerSave

/-!
# The status report of the access point

Reference: `host/core/host_apis.c`, `ap_mode_status`.

The report lists the `VALID` stations one after the other, so the loop over the table has two
indices: the slot it is at, and the entry of the report that comes next. The state of a station is
read at the first, its address at the second. The two are the same until a station leaves that is
not the last. The report has room for two stations.
-/

namespace Fullmac.Ap

open Table
open Rx (ConnStatus)

variable {cfg : ApCfg}

/-- `struct conn_info`. -/
structure ConnInfo where
  mac : EtherAddr
  status : ConnStatus

/-- `ssv6xxx_sec_type`. -/
inductive SecType
  | none | wep40 | wep104 | wpaPsk | wpa2Psk | wps
deriving DecidableEq, Repr

/-- What the report takes from the configuration and the interface. -/
structure StatusCfg where
  selfMac : EtherAddr
  ssid : List UInt8
  nCurrentChannel : UInt8
  secType : SecType
  currentSt : ℕ

/-- `struct ap_sta_status_ap`. The field `overrun` is not in the source: a station was written
behind the two of `stainfo`. -/
structure ApStatus where
  selfmac : EtherAddr
  channel : UInt8
  ssid : List UInt8
  stanum : ℕ
  stainfo : Fin 2 → ConnInfo
  proto : ℕ
  keyMgmt : ℕ
  pairwiseCipher : ℕ
  groupCipher : ℕ
  currentSt : ℕ
  overrun : Bool

/-- `StaConInfo[k].addr`. -/
def staConAddr (s : ApInfo cfg) (k : ℕ) : EtherAddr :=
  if h : k < cfg.maxAid then (s.sta ⟨k, h⟩).addr else Vector.replicate 6 0

/-- What the loop writes into an entry of the report. -/
def fillConnInfo (mac : EtherAddr) (st : Station cfg) (c : ConnInfo) : ConnInfo :=
  let c := { c with mac }
  let c := if st.auth then { c with status := .auth } else c
  let c := if st.assoc then { c with status := .assoc } else c
  if st.authorized then { c with status := .connect } else c

/-- The body of the loop; the second component is `sta`. -/
def reportStep (s : ApInfo cfg) (p : ApStatus × ℕ) (idx : StaIdx cfg) : ApStatus × ℕ :=
  if !(s.sta idx).valid then p
  else
    ({ p.1 with
        stainfo := fun j =>
          if j.val = p.2 then fillConnInfo (staConAddr s p.2) (s.sta idx) (p.1.stainfo j)
          else p.1.stainfo j
        overrun := p.1.overrun || decide (2 ≤ p.2) },
      p.2 + 1)

/-- The constants of the ciphers and of the key management that the report shows. -/
def reportSecurity (secType : SecType) (r : ApStatus) : ApStatus :=
  match secType with
  | .none => { r with keyMgmt := 4, pairwiseCipher := 1, groupCipher := 1 }
  | .wep40 => { r with keyMgmt := 4, pairwiseCipher := 2, groupCipher := 2 }
  | .wep104 => { r with keyMgmt := 4, pairwiseCipher := 4, groupCipher := 4 }
  | .wpaPsk => { r with proto := 1, keyMgmt := 2, pairwiseCipher := 8, groupCipher := 8 }
  | .wpa2Psk => { r with proto := 2, keyMgmt := 2, pairwiseCipher := 16, groupCipher := 16 }
  | .wps => r

/-- `ap_mode_status` on the report `r`. -/
def apModeStatus (s : ApInfo cfg) (c : StatusCfg) (r : ApStatus) : ApStatus :=
  let r := { r with
    selfmac := c.selfMac, ssid := c.ssid, stanum := s.numSta, channel := c.nCurrentChannel }
  let r := ((List.finRange cfg.maxAid).foldl (reportStep s) (r, 0)).1
  { reportSecurity c.secType r with currentSt := c.currentSt }

/-! ## What the report is to say -/

/-- The highest state of a station. -/
def highestState (st : Station cfg) : Option ConnStatus :=
  if st.authorized then some .connect
  else if st.assoc then some .assoc
  else if st.auth then some .auth
  else none

/-- The `VALID` stations, in the order of the table. -/
def validStations (s : ApInfo cfg) : List (StaIdx cfg) :=
  (List.finRange cfg.maxAid).filter fun i => (s.sta i).valid

/-- The report has the number of stations, and of each one its address and highest state. -/
structure StatusReported (s : ApInfo cfg) (r : ApStatus) : Prop where
  stanum : r.stanum = (validStations s).length
  stainfo : ∀ j i, (validStations s)[j]? = some i → ∃ e : Fin 2, e.val = j ∧
    (r.stainfo e).mac = (s.sta i).addr ∧
      ∀ x, highestState (s.sta i) = some x → (r.stainfo e).status = x

/-- Station `i`, the `VALID` one with `j` before it, is in slot `j`, or that slot is free and still
has its address. -/
def InPlace (s : ApInfo cfg) (j : ℕ) (i : StaIdx cfg) : Prop :=
  i.val = j ∨
    ∃ f : StaIdx cfg, f.val = j ∧ (s.sta f).valid = false ∧ (s.sta f).addr = (s.sta i).addr

/-! ## The loop -/

variable {s : ApInfo cfg} {i : StaIdx cfg} {r : ApStatus} {j : ℕ}

theorem fillConnInfo_mac (mac : EtherAddr) (st : Station cfg) (c : ConnInfo) :
    (fillConnInfo mac st c).mac = mac := by
  unfold fillConnInfo
  split_ifs <;> rfl

/-- The last flag that is set decides. -/
theorem fillConnInfo_status {mac : EtherAddr} {st : Station cfg} {c : ConnInfo} {x : ConnStatus}
    (h : highestState st = some x) : (fillConnInfo mac st c).status = x := by
  unfold highestState at h
  unfold fillConnInfo
  split_ifs at h ⊢ <;> simp_all

/-- The loop writes the stations it has met into the first entries. -/
theorem reportStep_foldl (s : ApInfo cfg) (r : ApStatus) (is : List (StaIdx cfg)) :
    let V := is.filter fun i => (s.sta i).valid
    let p := is.foldl (reportStep s) (r, 0)
    p.2 = V.length ∧ p.1.stanum = r.stanum ∧
      ∀ e : Fin 2, p.1.stainfo e = V[e.val]?.elim (r.stainfo e) fun i =>
        fillConnInfo (staConAddr s e) (s.sta i) (r.stainfo e) := by
  induction is using List.reverseRecOn with
  | nil => exact ⟨rfl, rfl, fun e => rfl⟩
  | append_singleton is i ih =>
    intro V p
    obtain ⟨hlen, hnum, hinfo⟩ := ih
    have hp : p = reportStep s (is.foldl (reportStep s) (r, 0)) i := List.foldl_concat ..
    have hV : V = is.filter (fun i => (s.sta i).valid) ++ [i].filter fun i => (s.sta i).valid :=
      List.filter_append ..
    rw [hp, hV]
    generalize is.foldl (reportStep s) (r, 0) = q at hlen hnum hinfo ⊢
    generalize is.filter (fun i => (s.sta i).valid) = W at hlen hinfo ⊢
    by_cases hv : (s.sta i).valid = true
    case neg =>
      simp only [reportStep, hv, Bool.not_false, if_true, List.filter_cons, Bool.false_eq_true,
        if_false, List.filter_nil, List.append_nil]
      exact ⟨hlen, hnum, hinfo⟩
    simp only [reportStep, hv, Bool.not_true, Bool.false_eq_true, if_false, List.filter_cons,
      if_true, List.filter_nil, List.length_append, List.length_singleton, hlen, hnum, true_and]
    intro e
    rw [hinfo e]
    rcases Nat.lt_trichotomy e.val W.length with hlt | heq | hgt
    · rw [if_neg hlt.ne, List.getElem?_append_left hlt]
    · rw [if_pos heq, ← heq, List.getElem?_eq_none heq.ge, heq, List.getElem?_concat_length]
      rfl
    · rw [if_neg hgt.ne', List.getElem?_eq_none hgt.le,
        List.getElem?_eq_none (by simp; omega)]

@[simp] theorem reportSecurity_stainfo (t : SecType) (r : ApStatus) :
    (reportSecurity t r).stainfo = r.stainfo := by
  cases t <;> rfl

@[simp] theorem reportSecurity_stanum (t : SecType) (r : ApStatus) :
    (reportSecurity t r).stanum = r.stanum := by
  cases t <;> rfl

/-- What the report says of the stations. -/
theorem apModeStatus_spec (s : ApInfo cfg) (c : StatusCfg) (r : ApStatus) :
    (apModeStatus s c r).stanum = s.numSta ∧
      ∀ e : Fin 2, (apModeStatus s c r).stainfo e = (validStations s)[e.val]?.elim (r.stainfo e)
        fun i => fillConnInfo (staConAddr s e) (s.sta i) (r.stainfo e) := by
  obtain ⟨-, hnum, hinfo⟩ := reportStep_foldl s
    { r with
      selfmac := c.selfMac, ssid := c.ssid, stanum := s.numSta, channel := c.nCurrentChannel }
    (List.finRange cfg.maxAid)
  exact ⟨(reportSecurity_stanum _ _).trans hnum,
    fun e => (congrFun (reportSecurity_stainfo _ _) e).trans (hinfo e)⟩

/-! ## When it does -/

/-- The counter of stations is the number of `VALID` ones. -/
theorem numSta_eq_length (h : TableInv s.table) : s.numSta = (validStations s).length := by
  have hnum : s.numSta = count (·.valid) s.table.sta := h.numSta
  rw [hnum, count_eq_length_filter]
  rfl

theorem validStations_length_le (s : ApInfo cfg) : (validStations s).length ≤ cfg.maxAid := by
  simpa [validStations] using
    List.length_filter_le (fun i => (s.sta i).valid) (List.finRange cfg.maxAid)

/-- The address that the report takes for a station is its own exactly when it is in place. -/
theorem staConAddr_eq_iff (h : TableInv s.table) (hi : (validStations s)[j]? = some i) :
    staConAddr s j = (s.sta i).addr ↔ InPlace s j i := by
  have hj : j < cfg.maxAid :=
    (List.getElem?_eq_some_iff.mp hi).1.trans_le (validStations_length_le s)
  have hvi : (s.sta i).valid = true := (List.mem_filter.mp (List.mem_of_getElem? hi)).2
  rw [staConAddr, dif_pos hj]
  constructor
  · intro haddr
    by_cases hv : (s.sta ⟨j, hj⟩).valid = true
    · -- two `VALID` stations have two addresses
      have hsame : (⟨j, hj⟩ : StaIdx cfg) = i := h.addr_inj _ _ hv hvi haddr
      exact .inl (congrArg Fin.val hsame).symm
    · exact .inr ⟨⟨j, hj⟩, rfl, by simpa using hv, haddr⟩
  · rintro (rfl | ⟨f, rfl, -, haddr⟩)
    · rfl
    · exact haddr

/-- The report is right exactly when there are at most two stations, and each is in place. -/
theorem statusReported_iff (h : TableInv s.table) (c : StatusCfg) (r : ApStatus) :
    StatusReported s (apModeStatus s c r) ↔
      (validStations s).length ≤ 2 ∧
        ∀ j i, (validStations s)[j]? = some i → InPlace s j i := by
  obtain ⟨hnum, hinfo⟩ := apModeStatus_spec s c r
  constructor
  · intro hrep
    refine ⟨?_, fun j i hi => ?_⟩
    · by_contra hlt
      -- the third station has no entry
      obtain ⟨e, he, -⟩ := hrep.stainfo 2 _ (List.getElem?_eq_getElem (by omega))
      omega
    · obtain ⟨e, rfl, hmac, -⟩ := hrep.stainfo j i hi
      rw [hinfo, hi, Option.elim_some, fillConnInfo_mac] at hmac
      exact (staConAddr_eq_iff h hi).mp hmac
  · rintro ⟨hle, hplace⟩
    refine ⟨hnum.trans (numSta_eq_length h), fun j i hi => ?_⟩
    have hj : j < 2 := (List.getElem?_eq_some_iff.mp hi).1.trans_le hle
    refine ⟨⟨j, hj⟩, rfl, ?_, fun x hx => ?_⟩
    · rw [hinfo, hi, Option.elim_some, fillConnInfo_mac]
      exact (staConAddr_eq_iff h hi).mpr (hplace j i hi)
    · rw [hinfo, hi, Option.elim_some]
      exact fillConnInfo_status hx

/-- **The status report.** In every state the access point reaches, the report lists the `VALID`
stations with their addresses and states exactly when there are at most two of them and each has
as many slots before it as `VALID` stations, or else a free slot there with its own address. -/
theorem apModeStatus_reported_iff (es : List (ApEvent cfg)) (c : StatusCfg) (r : ApStatus) :
    StatusReported (Machine.run apStep (initAp cfg) es).1
        (apModeStatus (Machine.run apStep (initAp cfg) es).1 c r) ↔
      (validStations (Machine.run apStep (initAp cfg) es).1).length ≤ 2 ∧
        ∀ j i, (validStations (Machine.run apStep (initAp cfg) es).1)[j]? = some i →
          InPlace (Machine.run apStep (initAp cfg) es).1 j i :=
  statusReported_iff (tableInv_kept.run tableInv_initAp es) c r

/-- Two stations authenticate, and the first leaves. -/
def firstLeaves : List (ApEvent openAp) :=
  (sleeperEvents (Vector.replicate 6 4)).take 1 ++ (sleeperEvents (Vector.replicate 6 6)).take 1
    ++ [.deauth true (Vector.replicate 6 4)]

/-- The report of an open network, before it is filled. -/
def blankStatus : ApStatus where
  selfmac := Vector.replicate 6 0
  channel := 0
  ssid := []
  stanum := 0
  stainfo := fun _ => ⟨Vector.replicate 6 0, .disconnect⟩
  proto := 0
  keyMgmt := 0
  pairwiseCipher := 0
  groupCipher := 0
  currentSt := 0
  overrun := false

/-- The station that has stayed is reported with the address of the slot the other one has left. -/
theorem not_statusReported_firstLeaves :
    ¬ StatusReported (Machine.run apStep (initAp openAp) firstLeaves).1
      (apModeStatus (Machine.run apStep (initAp openAp) firstLeaves).1
        ⟨Vector.replicate 6 2, [], 6, .none, 2⟩ blankStatus) := by
  intro h
  have hfirst : (validStations (Machine.run apStep (initAp openAp) firstLeaves).1)[0]?.isSome
      = true := by decide +kernel
  obtain ⟨i, hi⟩ := Option.isSome_iff_exists.mp hfirst
  obtain ⟨e, he, hmac, -⟩ := h.stainfo 0 i hi
  have hmem : i ∈ validStations (Machine.run apStep (initAp openAp) firstLeaves).1 :=
    List.mem_of_getElem? hi
  revert hmac hmem he
  revert e i
  decide +kernel

end Fullmac.Ap
