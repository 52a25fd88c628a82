import Fullmac.Lib.Loops
import Fullmac.Lib.Machine
import Mathlib.Data.UInt

/-!
# The transmit resources of the chip

Reference: `host/hif_wrapper/ssv_drv.c`, `ssv6xxx_drv_tx_resource_enough` and
`ssv6xxx_drv_wait_tx_resource`; `host/hal/SSV6006/ssv6006_hal.c`, `ssv6006_hal_get_tx_resources` and
`ssv6006_hal_bytes_to_pages`.

The host keeps three counters of what the chip has left for frames: pages, ids and places in its
input queue. A frame is sent after what it needs has been deducted. When a counter is too small, the
counters are read anew from the registers of the chip, which say how much is in use, and this is
repeated at most `tx_retry_cnt` times. What the registers say is not trusted: a difference below
zero wraps around to a number above the threshold and empties all counters.
-/

namespace Fullmac.Drv

open Loops (passes)

/-! ## The counters and the registers -/

/-- `struct rcs_info`. -/
@[ext] structure RcsInfo where
  freePage : UInt16
  freeId : UInt16
  freeSpace : UInt16
deriving DecidableEq, Repr

/-- The counters after `MEMSET`. -/
def RcsInfo.zero : RcsInfo := ⟨0, 0, 0⟩

/-- `g_host_cfg.tx_res_page`, a field of eight bits, which is also written to the chip as its limit
of pages for transmission. -/
structure TxThresholds where
  txResPage : ℕ
  txResPage_lt : txResPage < 256

/-- `SSV6006_ID_TX_THRESHOLD`. -/
def idTxThreshold : ℕ := 63

/-- `M_ENG_HWHCI_INT`. -/
def mEngHwhciInt : ℕ := 8

/-- What the two registers read that are looked at. -/
structure TxSnapshot where
  txIdAllInfo : UInt32
  rdInFfcnt1 : UInt32
deriving DecidableEq, Repr

/-- `tx_use_page`, the lowest eight bits of `struct ssv6006_hci_txq_info`. -/
def TxSnapshot.txUsePage (snap : TxSnapshot) : UInt32 := snap.txIdAllInfo &&& 0xFF

/-- `tx_use_id`, the six bits above. -/
def TxSnapshot.txUseId (snap : TxSnapshot) : UInt32 := (snap.txIdAllInfo >>> 8) &&& 0x3F

/-- `GET_FF1_CNT`. -/
def TxSnapshot.ff1Cnt (snap : TxSnapshot) : UInt32 := (snap.rdInFfcnt1 &&& 0x1E0) >>> 5

variable (cfg : TxThresholds)

/-- `ssv6006_hal_get_tx_resources`. The differences are those of `int` and `u32`, cut to sixteen
bits when they are stored. -/
def halGetTxResources (snap : TxSnapshot) : RcsInfo :=
  let freePage := UInt16.ofNat cfg.txResPage - snap.txUsePage.toUInt16
  let freeId := UInt16.ofNat idTxThreshold - snap.txUseId.toUInt16
  let freeSpaces := UInt16.ofNat mEngHwhciInt - snap.ff1Cnt.toUInt16
  if freePage.toNat ≤ cfg.txResPage ∧ freeId.toNat ≤ idTxThreshold ∧
      freeSpaces.toNat ≤ mEngHwhciInt then
    ⟨freePage, freeId, freeSpaces⟩
  else ⟨0, 0, 0⟩

/-- `SSV6006_ALLOC_RSVD`. -/
def allocRsvd : UInt32 := 80 + 3 * 16

/-- `ssv6006_hal_bytes_to_pages`, in `u32` arithmetic. -/
def halBytesToPages (size : UInt32) : UInt32 :=
  let pageCount := size + allocRsvd
  if pageCount &&& 0xFF ≠ 0 then (pageCount >>> 8) + 1 else pageCount >>> 8

/-! ## The reservation -/

/-- What happens to the counters, with their values afterwards: they are read from the chip, or a
frame's share is deducted, or (which does not happen) a call does not return. -/
inductive TxEvent
  | refresh (snap : TxSnapshot) (now : RcsInfo)
  | reserve (pages : UInt32) (was now : RcsInfo)
  | hangs
deriving DecidableEq, Repr

/-- A call of `ssv6xxx_drv_tx_resource_enough`: the length, `g_host_cfg.tx_retry_cnt` at the time,
and what the registers read each time they are read. -/
structure TxCall where
  frameLen : UInt32
  txRetryCnt : UInt8
  snaps : ℕ → TxSnapshot

/-- The variables of the loop, and what has been done so far. -/
structure EnoughState where
  rcs : RcsInfo
  rtyCnt : ℕ
  seen : ℕ
  events : List TxEvent

/-- What a call returns and leaves behind. -/
structure EnoughResult where
  ret : Bool
  rcs : RcsInfo
  events : List TxEvent

/-- The counters do not suffice: `need_check_tx_src`. -/
def RcsInfo.Short (rcs : RcsInfo) (pageCount : UInt32) : Prop :=
  rcs.freePage.toNat < pageCount.toNat ∨ rcs.freeId.toNat ≤ 0 ∨ rcs.freeSpace.toNat ≤ 0

instance (rcs : RcsInfo) (pageCount : UInt32) : Decidable (rcs.Short pageCount) :=
  inferInstanceAs (Decidable (_ ∨ _ ∨ _))

/-- The counters less a frame of `pageCount` pages, in `u16` arithmetic. -/
def RcsInfo.deduct (rcs : RcsInfo) (pageCount : UInt32) : RcsInfo :=
  ⟨rcs.freePage - pageCount.toUInt16, rcs.freeId - 1, rcs.freeSpace - 1⟩

/-- One pass of the loop of `ssv6xxx_drv_tx_resource_enough`. -/
def enoughPass (call : TxCall) (st : EnoughState) : EnoughState ⊕ EnoughResult :=
  let pageCount := halBytesToPages call.frameLen
  if st.rcs.Short pageCount then
    if 0 < st.rtyCnt then
      let snap := call.snaps st.seen
      let rcs := halGetTxResources cfg snap
      .inl ⟨rcs, st.rtyCnt - 1, st.seen + 1, st.events ++ [.refresh snap rcs]⟩
    else .inr ⟨false, st.rcs, st.events⟩
  else
    let rcs := st.rcs.deduct pageCount
    .inr ⟨true, rcs, st.events ++ [.reserve pageCount st.rcs rcs]⟩

/-- `ssv6xxx_drv_tx_resource_enough`, followed for at most `n` passes of its loop. -/
def drvTxResourceEnough (call : TxCall) (n : ℕ) (rcs : RcsInfo) : Option EnoughResult :=
  passes (enoughPass cfg call) n ⟨rcs, call.txRetryCnt.toNat, 0, []⟩

/-- One pass of the loop of `ssv6xxx_drv_wait_tx_resource`, the `k`-th, with what the calls find and
what the registers read behind each of them. `times` only decides on a delay and is left out. -/
def waitPass (calls : ℕ → TxCall) (snaps : ℕ → TxSnapshot) (st : RcsInfo × ℕ) :
    (RcsInfo × ℕ) ⊕ Option RcsInfo :=
  match drvTxResourceEnough cfg (calls st.2) ((calls st.2).txRetryCnt.toNat + 1) st.1 with
  | none => .inr none
  | some r => if r.ret then .inr r.rcs else .inl (halGetTxResources cfg (snaps st.2), st.2 + 1)

/-- What happens between frames: a call, or the counters are read from the chip by another function
(the loop of `ssv6xxx_drv_wait_tx_resource`, the initialisation of the chip). -/
inductive TxOp
  | enough (call : TxCall)
  | getTxResources (snap : TxSnapshot)

/-- One of these. The passes granted to a call are one more than its refreshes. -/
def txResourceStep (rcs : RcsInfo) : TxOp → RcsInfo × List TxEvent
  | .enough call =>
    match drvTxResourceEnough cfg call (call.txRetryCnt.toNat + 1) rcs with
    | some r => (r.rcs, r.events)
    | none => (rcs, [.hangs])
  | .getTxResources snap =>
    (halGetTxResources cfg snap, [.refresh snap (halGetTxResources cfg snap)])

/-! ## An account of the counters -/

variable {cfg}

/-- `SSV6006_PAGE_TX_THRESHOLD` and the other two are not exceeded. -/
structure RcsInfo.Within (cfg : TxThresholds) (rcs : RcsInfo) : Prop where
  page : rcs.freePage.toNat ≤ cfg.txResPage
  id : rcs.freeId.toNat ≤ idTxThreshold
  space : rcs.freeSpace.toNat ≤ mEngHwhciInt

/-- The pages that are free as far as the registers say: none if more are in use than there are. -/
def TxSnapshot.freePages (cfg : TxThresholds) (snap : TxSnapshot) : ℕ :=
  cfg.txResPage - snap.txUsePage.toNat

/-- The counters claim no more than the registers say is free. -/
structure Reported (cfg : TxThresholds) (snap : TxSnapshot) (now : RcsInfo) : Prop where
  page : now.freePage.toNat ≤ snap.freePages cfg
  id : now.freeId.toNat ≤ idTxThreshold - snap.txUseId.toNat
  space : now.freeSpace.toNat ≤ mEngHwhciInt - snap.ff1Cnt.toNat

/-- `pages` pages, one id and one place have been there and are gone. -/
structure Deducts (pages : UInt32) (was now : RcsInfo) : Prop where
  page : now.freePage.toNat + pages.toNat = was.freePage.toNat
  id : now.freeId.toNat + 1 = was.freeId.toNat
  space : now.freeSpace.toNat + 1 = was.freeSpace.toNat

/-- The event reads the counters from the chip. -/
def TxEvent.IsRefresh : TxEvent → Prop
  | .refresh _ _ => True
  | _ => False

/-- The event leaves the counters below the thresholds. -/
def TxEvent.CountersWithin (cfg : TxThresholds) : TxEvent → Prop
  | .refresh _ now => now.Within cfg
  | .reserve _ _ now => now.Within cfg
  | .hangs => False

/-- The pages an event deducts. -/
def TxEvent.pages : TxEvent → ℕ
  | .reserve pages _ _ => pages.toNat
  | _ => 0

/-- The pages deducted by all events. -/
def reservedPages (events : List TxEvent) : ℕ := (events.map TxEvent.pages).sum

/-- The events account for how the counters come from one value to another: each reading of the chip
takes no more than it reports, each deduction is made from what is there. -/
inductive Ledger (cfg : TxThresholds) : RcsInfo → List TxEvent → RcsInfo → Prop
  | nil (rcs : RcsInfo) : Ledger cfg rcs [] rcs
  | refresh {rcs now rcs' : RcsInfo} {snap : TxSnapshot} {events : List TxEvent}
      (hnow : Reported cfg snap now) (hrest : Ledger cfg now events rcs') :
      Ledger cfg rcs (.refresh snap now :: events) rcs'
  | reserve {rcs now rcs' : RcsInfo} {pages : UInt32} {events : List TxEvent}
      (hnow : Deducts pages rcs now) (hrest : Ledger cfg now events rcs') :
      Ledger cfg rcs (.reserve pages rcs now :: events) rcs'

theorem Reported.within {snap : TxSnapshot} {now : RcsInfo} (h : Reported cfg snap now) :
    now.Within cfg :=
  ⟨h.page.trans (Nat.sub_le _ _), h.id.trans (Nat.sub_le _ _), h.space.trans (Nat.sub_le _ _)⟩

theorem Deducts.within {pages : UInt32} {was now : RcsInfo} (h : Deducts pages was now)
    (hwas : was.Within cfg) : now.Within cfg := by
  obtain ⟨hpage, hid, hspace⟩ := h
  obtain ⟨hpage', hid', hspace'⟩ := hwas
  exact ⟨by omega, by omega, by omega⟩

namespace Ledger

variable {rcs rcs' rcs'' : RcsInfo} {events events' : List TxEvent}

theorem append (h : Ledger cfg rcs events rcs') (h' : Ledger cfg rcs' events' rcs'') :
    Ledger cfg rcs (events ++ events') rcs'' := by
  induction h with
  | nil => exact h'
  | refresh hnow _ ih => exact .refresh hnow (ih h')
  | reserve hnow _ ih => exact .reserve hnow (ih h')

/-- An account can be closed and opened at any point. -/
theorem split (h : Ledger cfg rcs (events ++ events') rcs'') :
    ∃ rcs', Ledger cfg rcs events rcs' ∧ Ledger cfg rcs' events' rcs'' := by
  induction events generalizing rcs with
  | nil => exact ⟨rcs, .nil rcs, h⟩
  | cons e events ih =>
    cases h with
    | refresh hnow hrest =>
      obtain ⟨rcs', h, h'⟩ := ih hrest
      exact ⟨rcs', .refresh hnow h, h'⟩
    | reserve hnow hrest =>
      obtain ⟨rcs', h, h'⟩ := ih hrest
      exact ⟨rcs', .reserve hnow h, h'⟩

/-- The counters stay below the thresholds from one end to the other. -/
theorem within (h : Ledger cfg rcs events rcs') (hrcs : rcs.Within cfg) : rcs'.Within cfg := by
  induction h with
  | nil => exact hrcs
  | refresh hnow _ ih => exact ih hnow.within
  | reserve hnow _ ih => exact ih (hnow.within hrcs)

/-- Without a reading in between, what is deducted is what is gone. -/
theorem reservedPages_add (h : Ledger cfg rcs events rcs') (hno : ∀ e ∈ events, ¬ e.IsRefresh) :
    reservedPages events + rcs'.freePage.toNat = rcs.freePage.toNat := by
  induction h with
  | nil => exact Nat.zero_add _
  | refresh => exact absurd trivial (hno _ List.mem_cons_self)
  | reserve hnow _ ih =>
    have hrest := ih fun e he => hno e (List.mem_cons_of_mem _ he)
    have hpage := hnow.page
    simp only [reservedPages, List.map_cons, List.sum_cons, TxEvent.pages] at hrest ⊢
    omega

/-- Every deduction is made from what is there. -/
theorem deducts (h : Ledger cfg rcs events rcs') {pages : UInt32} {was now : RcsInfo}
    (he : .reserve pages was now ∈ events) : Deducts pages was now := by
  obtain ⟨pre, post, rfl⟩ := List.append_of_mem he
  obtain ⟨_, -, hpost⟩ := h.split
  cases hpost with
  | reserve hnow _ => exact hnow

/-- Between two readings no more is deducted than the first one reported. -/
theorem reservedPages_le {pre mid post : List TxEvent} {snap : TxSnapshot} {now : RcsInfo}
    (h : Ledger cfg rcs (pre ++ .refresh snap now :: (mid ++ post)) rcs')
    (hno : ∀ e ∈ mid, ¬ e.IsRefresh) : reservedPages mid ≤ snap.freePages cfg := by
  obtain ⟨_, -, hpost⟩ := h.split
  cases hpost with
  | refresh hnow hrest =>
    obtain ⟨_, hmid, -⟩ := hrest.split
    have hsum := hmid.reservedPages_add hno
    have hpage := hnow.page
    omega

end Ledger

/-! ## The code keeps an account -/

theorem TxSnapshot.txUsePage_lt (snap : TxSnapshot) : snap.txUsePage.toNat < 256 := by
  have h : snap.txUsePage.toNat = snap.txIdAllInfo.toNat &&& 255 := by
    simp [txUsePage]
  have hle : snap.txIdAllInfo.toNat &&& 255 ≤ 255 := Nat.and_le_right
  omega

theorem TxSnapshot.txUseId_lt (snap : TxSnapshot) : snap.txUseId.toNat < 256 := by
  have h : snap.txUseId.toNat = (snap.txIdAllInfo >>> 8).toNat &&& 63 := by
    rw [txUseId, UInt32.toNat_and]
    rfl
  have hle : (snap.txIdAllInfo >>> 8).toNat &&& 63 ≤ 63 := Nat.and_le_right
  omega

theorem TxSnapshot.ff1Cnt_lt (snap : TxSnapshot) : snap.ff1Cnt.toNat < 256 := by
  have h : snap.ff1Cnt.toNat = (snap.rdInFfcnt1.toNat &&& 480) >>> 5 := by
    rw [ff1Cnt, UInt32.toNat_shiftRight, UInt32.toNat_and]
    rfl
  have hle : snap.rdInFfcnt1.toNat &&& 480 ≤ 480 := Nat.and_le_right
  rw [Nat.shiftRight_eq_div_pow] at h
  omega

/-- A difference that does not exceed the threshold has not wrapped around. -/
theorem toNat_sub_of_le {t : ℕ} (ht : t < 256) {u : UInt32} (hu : u.toNat < 256)
    (h : (UInt16.ofNat t - u.toUInt16).toNat ≤ t) :
    (UInt16.ofNat t - u.toUInt16).toNat = t - u.toNat := by
  rw [UInt16.toNat_sub, UInt32.toNat_toUInt16, UInt16.toNat_ofNat'] at h ⊢
  omega

/-- Whatever the registers read, the counters claim no more. -/
theorem halGetTxResources_reported (cfg : TxThresholds) (snap : TxSnapshot) :
    Reported cfg snap (halGetTxResources cfg snap) := by
  rw [halGetTxResources]
  split
  · rename_i h
    obtain ⟨hpage, hid, hspace⟩ := h
    exact ⟨(toNat_sub_of_le cfg.txResPage_lt snap.txUsePage_lt hpage).le,
      (toNat_sub_of_le (by decide) snap.txUseId_lt hid).le,
      (toNat_sub_of_le (by decide) snap.ff1Cnt_lt hspace).le⟩
  · exact ⟨Nat.zero_le _, Nat.zero_le _, Nat.zero_le _⟩

/-- Counters that suffice do not wrap around. -/
theorem RcsInfo.deducts_deduct {rcs : RcsInfo} {pageCount : UInt32} (h : ¬ rcs.Short pageCount) :
    Deducts pageCount rcs (rcs.deduct pageCount) := by
  simp only [Short, not_or, not_lt, not_le] at h
  obtain ⟨hpage, hid, hspace⟩ := h
  have hlt := rcs.freePage.toNat_lt
  have hidLt := rcs.freeId.toNat_lt
  have hspaceLt := rcs.freeSpace.toNat_lt
  refine ⟨?_, ?_, ?_⟩
  · rw [deduct, UInt16.toNat_sub, UInt32.toNat_toUInt16]
    omega
  · rw [deduct, UInt16.toNat_sub, UInt16.toNat_one]
    omega
  · rw [deduct, UInt16.toNat_sub, UInt16.toNat_one]
    omega

/-- What a call may do. TRUE means that the frame's pages, one id and one place have been deducted
from counters that were sufficient, and that this was the last thing done; FALSE means that the chip
has been asked at most and nothing was deducted. -/
structure CallRight (cfg : TxThresholds) (call : TxCall) (rcs : RcsInfo) (r : EnoughResult) :
    Prop where
  ledger : Ledger cfg rcs r.events r.rcs
  ret_iff : r.ret = true ↔ ∃ refreshes was, (∀ e ∈ refreshes, e.IsRefresh) ∧
    Deducts (halBytesToPages call.frameLen) was r.rcs ∧
    r.events = refreshes ++ [.reserve (halBytesToPages call.frameLen) was r.rcs]
  not_ret : r.ret = false → ∀ e ∈ r.events, e.IsRefresh
  refreshes_le : r.events.length ≤ call.txRetryCnt.toNat + if r.ret then 1 else 0

/-- What is left of a call after its first refreshes is right, and ends. -/
theorem passes_enoughPass {call : TxCall} {rcs : RcsInfo} {st : EnoughState} {n : ℕ}
    (hledger : Ledger cfg rcs st.events st.rcs) (hrefresh : ∀ e ∈ st.events, e.IsRefresh)
    (hlen : st.events.length + st.rtyCnt = call.txRetryCnt.toNat) (hn : st.rtyCnt < n) :
    ∃ r, passes (enoughPass cfg call) n st = some r ∧ CallRight cfg call rcs r := by
  induction n generalizing st with
  | zero => exact absurd hn (Nat.not_lt_zero _)
  | succ n ih =>
    by_cases hshort : st.rcs.Short (halBytesToPages call.frameLen)
    · by_cases hrty : 0 < st.rtyCnt
      · have hbody := enoughPass.eq_def cfg call st
        rw [if_pos hshort, if_pos hrty] at hbody
        rw [Loops.passes_succ_of_inl hbody]
        refine ih ?_ ?_ ?_ ?_
        · exact hledger.append (.refresh (halGetTxResources_reported cfg _) (.nil _))
        · simpa [or_imp, forall_and] using ⟨hrefresh, trivial⟩
        · simp only [List.length_append, List.length_singleton]
          omega
        · exact Nat.lt_of_lt_of_le (Nat.sub_lt hrty Nat.one_pos) (Nat.le_of_lt_succ hn)
      · have hbody := enoughPass.eq_def cfg call st
        rw [if_pos hshort, if_neg hrty] at hbody
        refine ⟨_, Loops.passes_succ_of_inr hbody n, hledger, ?_, fun _ => hrefresh, ?_⟩
        · refine ⟨fun h => absurd h Bool.false_ne_true, ?_⟩
          rintro ⟨refreshes, was, -, -, hev⟩
          have hevents : st.events
              = refreshes ++ [.reserve (halBytesToPages call.frameLen) was st.rcs] := hev
          have hmem : .reserve (halBytesToPages call.frameLen) was st.rcs ∈ st.events := by
            rw [hevents]
            exact List.mem_append_right refreshes List.mem_cons_self
          exact absurd (hrefresh _ hmem) id
        · simp only [Bool.false_eq_true, if_false]
          omega
    · have hbody := enoughPass.eq_def cfg call st
      rw [if_neg hshort] at hbody
      have hdeducts := RcsInfo.deducts_deduct hshort
      refine ⟨_, Loops.passes_succ_of_inr hbody n, ?_, ?_, ?_, ?_⟩
      · exact hledger.append (.reserve hdeducts (.nil _))
      · exact ⟨fun _ => ⟨st.events, st.rcs, hrefresh, hdeducts, rfl⟩, fun _ => rfl⟩
      · exact fun h => absurd h Bool.noConfusion
      · simp only [List.length_append, List.length_singleton, if_true]
        omega

theorem drvTxResourceEnough_spec (cfg : TxThresholds) (call : TxCall) (rcs : RcsInfo) {n : ℕ}
    (hn : call.txRetryCnt.toNat < n) :
    ∃ r, drvTxResourceEnough cfg call n rcs = some r ∧ CallRight cfg call rcs r :=
  passes_enoughPass (.nil rcs) (by simp) (Nat.zero_add _) hn

/-- Every step adds to the account. -/
theorem txResourceStep_ledger (cfg : TxThresholds) (rcs : RcsInfo) (op : TxOp) :
    Ledger cfg rcs (txResourceStep cfg rcs op).2 (txResourceStep cfg rcs op).1 := by
  cases op with
  | enough call =>
    obtain ⟨r, hr, hright⟩ := drvTxResourceEnough_spec cfg call rcs (Nat.lt_succ_self _)
    rw [txResourceStep, hr]
    exact hright.ledger
  | getTxResources snap => exact .refresh (halGetTxResources_reported cfg snap) (.nil _)

/-- So does every run. -/
theorem run_txResourceStep_ledger (cfg : TxThresholds) (rcs : RcsInfo) (ops : List TxOp) :
    Ledger cfg rcs (Machine.run (txResourceStep cfg) rcs ops).2
      (Machine.run (txResourceStep cfg) rcs ops).1 :=
  Machine.run_induction (P := fun rcs' _ events => Ledger cfg rcs events rcs') (.nil rcs)
    (fun rcs' _ _ op h => h.append (txResourceStep_ledger cfg rcs' op)) ops

/-- The calls and readings of `n` passes of the loop that waits. -/
def waitOps (calls : ℕ → TxCall) (snaps : ℕ → TxSnapshot) (k : ℕ) : ℕ → List TxOp
  | 0 => []
  | n + 1 => .enough (calls k) :: .getTxResources (snaps k) :: waitOps calls snaps (k + 1) n

/-- A wait that ends has been some calls and readings, and a call that was granted. -/
theorem passes_waitPass {calls : ℕ → TxCall} {snaps : ℕ → TxSnapshot} {n k : ℕ}
    {rcs : RcsInfo} {o : Option RcsInfo}
    (h : passes (waitPass cfg calls snaps) n (rcs, k) = some o) :
    ∃ m, o = some (Machine.run (txResourceStep cfg) rcs
      (waitOps calls snaps k m ++ [.enough (calls (k + m))])).1 := by
  induction n generalizing rcs k with
  | zero => cases h
  | succ n ih =>
    obtain ⟨r, hr, -⟩ := drvTxResourceEnough_spec cfg (calls k) rcs (Nat.lt_succ_self _)
    have hstep : (txResourceStep cfg rcs (.enough (calls k))).1 = r.rcs := by
      rw [txResourceStep, hr]
    have hbody := waitPass.eq_def cfg calls snaps (rcs, k)
    rw [hr] at hbody
    cases hret : r.ret with
    | true =>
      simp only [hret, if_true] at hbody
      rw [Loops.passes_succ_of_inr hbody, Option.some.injEq] at h
      refine ⟨0, ?_⟩
      simp only [waitOps, List.nil_append, Nat.add_zero, Machine.run_cons, Machine.run_nil, hstep]
      exact h.symm
    | false =>
      simp only [hret, Bool.false_eq_true, if_false] at hbody
      rw [Loops.passes_succ_of_inl hbody] at h
      obtain ⟨m, hm⟩ := ih h
      refine ⟨m + 1, ?_⟩
      rw [hm, waitOps, Nat.add_right_comm, Nat.add_assoc]
      rfl

theorem RcsInfo.within_zero (cfg : TxThresholds) : RcsInfo.zero.Within cfg :=
  ⟨Nat.zero_le _, Nat.zero_le _, Nat.zero_le _⟩

/-- The counters after any part of what happened are below the thresholds. -/
theorem Ledger.now_within {rcs rcs' : RcsInfo} {events : List TxEvent}
    (h : Ledger cfg rcs events rcs') (hrcs : rcs.Within cfg) {e : TxEvent} (he : e ∈ events) :
    e.CountersWithin cfg := by
  obtain ⟨pre, post, rfl⟩ := List.append_of_mem he
  obtain ⟨was, hpre, hpost⟩ := h.split
  have hwas := hpre.within hrcs
  cases hpost with
  | refresh hnow _ => exact hnow.within
  | reserve hnow _ => exact hnow.within hwas

/-- Over any run of calls, and of other readings of the chip between them, from the counters as they
are initialised: each call returns after at most `tx_retry_cnt` readings and does what its answer
says; no deduction wraps around; no counter is ever above its threshold; and of what the chip
reports at one reading no more than that is deducted until the next. -/
theorem txResources_kept (cfg : TxThresholds) (ops : List TxOp) :
    (∀ pre call, pre ++ [.enough call] <+: ops →
      ∃ r, drvTxResourceEnough cfg call (call.txRetryCnt.toNat + 1)
          (Machine.run (txResourceStep cfg) .zero pre).1 = some r ∧
        CallRight cfg call (Machine.run (txResourceStep cfg) .zero pre).1 r) ∧
    (∀ pages was now, .reserve pages was now ∈ (Machine.run (txResourceStep cfg) .zero ops).2 →
      Deducts pages was now) ∧
    (∀ e ∈ (Machine.run (txResourceStep cfg) .zero ops).2, e.CountersWithin cfg) ∧
    (∀ pre snap now mid post, (Machine.run (txResourceStep cfg) .zero ops).2
        = pre ++ .refresh snap now :: (mid ++ post) →
      (∀ e ∈ mid, ¬ e.IsRefresh) → reservedPages mid ≤ snap.freePages cfg) := by
  have hrun := run_txResourceStep_ledger cfg .zero ops
  refine ⟨?_, ?_, ?_, ?_⟩
  · intro pre call _
    exact drvTxResourceEnough_spec cfg call _ (Nat.lt_succ_self _)
  · intro pages was now he
    exact hrun.deducts he
  · intro e he
    exact hrun.now_within (RcsInfo.within_zero cfg) he
  · intro pre snap now mid post hsplit hno
    rw [hsplit] at hrun
    exact hrun.reservedPages_le hno

end Fullmac.Drv
