import Fullmac.Rx.Reorder
import Fullmac.Lib.Machine

/-!
# The list of access points in station mode

Reference: `host/core/mlme.c`.

The list has `g_max_num_of_ap_list` entries, read here below `n` out of a memory that has more. An
entry is free when its `channel_id` is zero. A scan result and a run of the refresh timer both go
through `sta_mode_ap_list_handler`, which

1. walks over the list once to find a free entry and the entry of the same BSSID, and removes what
   was not heard of for long (`getStatus`);
2. walks over it again to find the weakest entry (`lowRcip`);
3. writes the scan result somewhere, or drops it (`placeOf`, `recordBss`);
4. arms the refresh timer anew (`refreshTimer`).

The comparison of an entry with the access point that an interface has joined is a `STRCMP` of the
two addresses, which reads on behind an address without a zero byte: its result is a parameter. The
setting of the receive sensitivity is left out.
-/

namespace Fullmac.Mlme

/-! ## Entries -/

/-- `struct ssv6xxx_ieee80211_bss`. What the list only stores is `info`. -/
structure Bss where
  bssid : Vector UInt8 6
  channelId : UInt8
  ssid : Vector UInt8 32
  ssidLen : UInt8
  proto : ℕ
  info : List UInt8
  lastProbeResp : ℕ
  rpci : UInt8
  prevRcpi : ℕ
deriving DecidableEq

/-- An entry after `MEMSET`. -/
def Bss.zero : Bss where
  bssid := Vector.replicate 6 0
  channelId := 0
  ssid := Vector.replicate 32 0
  ssidLen := 0
  proto := 0
  info := []
  lastProbeResp := 0
  rpci := 0
  prevRcpi := 0

/-- The entry is in use. -/
def Bss.Occupied (e : Bss) : Prop := e.channelId ≠ 0

instance (e : Bss) : Decidable e.Occupied := inferInstanceAs (Decidable (_ ≠ _))

/-- `ap_list`. -/
abbrev ApList := ℕ → Bss

/-- `enum ap_act`. -/
inductive ApAct
  | add | modify | remove
deriving DecidableEq, Repr

/-- What a call of the handler finds around it. -/
structure ApEnv where
  /-- `OS_GetSysTick`. -/
  currentTick : ℕ
  /-- The interface is in station mode. -/
  staVif : Fin Rx.maxVifNum → Bool
  /-- `STRCMP` tells the entry from the access point that the interface has joined. -/
  strcmp : Fin Rx.maxVifNum → Bss → Bool

/-- `update_ap_info_evt`: nothing without an interface in station mode. -/
def updateApInfoEvt (env : ApEnv) (apIndex : ℕ) (apAct : ApAct) : List (ℕ × ApAct) :=
  if ∃ j, env.staVif j = true then [(apIndex, apAct)] else []

/-! ## The first walk -/

/-- `TIME_STAMP_EXPIRE`. -/
def timeStampExpire : ℕ := 10 * 60 * 1000

/-- The body of the inner loop of the first walk, for interface `j`. -/
def ageStep (env : ApEnv) (r : Bss × ℕ) (j : Fin Rx.maxVifNum) : Bss × ℕ :=
  if env.staVif j = true ∧ Rx.timeAfter env.currentTick (r.1.lastProbeResp + timeStampExpire)
      ∧ env.strcmp j r.1 = true then (Bss.zero, r.2 + 1)
  else r

/-- The inner loop of the first walk: the entry after it, and how often it was removed. -/
def ageEntry (env : ApEnv) (e : Bss) : Bss × ℕ :=
  (List.finRange Rx.maxVifNum).foldl (ageStep env) (e, 0)

/-- What the first walk computes. -/
structure Status where
  apList : ApList
  empty : ℕ
  duplicate : ℕ
  totalAp : ℕ
  evts : List (ℕ × ApAct)

/-- The entry is that of the scan result. -/
def IsDuplicate (bss : Option Bss) (e : Bss) : Prop := bss.map Bss.bssid = some e.bssid

instance (bss : Option Bss) (e : Bss) : Decidable (IsDuplicate bss e) :=
  inferInstanceAs (Decidable (_ = _))

/-- The first walk at entry `i`. -/
def statusStep (env : ApEnv) (bss : Option Bss) (st : Status) (i : ℕ) : Status :=
  if (st.apList i).channelId = 0 then { st with empty := i, totalAp := st.totalAp - 1 }
  else if IsDuplicate bss (st.apList i) then { st with duplicate := i }
  else
    let r := ageEntry env (st.apList i)
    if r.2 = 0 then st
    else
      { st with
        apList := Function.update st.apList i r.1
        empty := i
        evts := st.evts
          ++ (List.replicate r.2 (updateApInfoEvt env i .remove)).flatten }

/-- The first walk up to entry `k`, over a list of `n`. -/
def getStatus (env : ApEnv) (bss : Option Bss) (n : ℕ) (apList : ApList) (k : ℕ) : Status :=
  (List.range k).foldl (statusStep env bss) ⟨apList, 0xff, 0xff, n, []⟩

/-! ## The second walk -/

/-- The second walk at entry `i`. -/
def lowStep (apList : ApList) (low i : ℕ) : ℕ :=
  if (apList i).channelId ≠ 0 ∧ (apList low).rpci < (apList i).rpci then i else low

/-- `low_rcip` after the first `k` entries. -/
def lowRcip (apList : ApList) (k : ℕ) : ℕ := (List.range k).foldl (lowStep apList) 0

/-! ## Where a scan result goes -/

/-- `RSSI_SMOOTHING_SHIFT`. -/
def rssiSmoothingShift : ℕ := 5

/-- `RSSI_DECIMAL_POINT_SHIFT`. -/
def rssiDecimalPointShift : ℕ := 6

/-- `fine_tune_rcpi`. -/
def fineTuneRcpi (ap : Bss) : Bss :=
  if ap.prevRcpi ≠ 0 then
    let prev := (((ap.rpci.toNat <<< rssiDecimalPointShift)
      + ((ap.prevRcpi <<< rssiSmoothingShift) % 2 ^ 32 + 2 ^ 32 - ap.prevRcpi)) % 2 ^ 32)
        >>> rssiSmoothingShift
    { ap with prevRcpi := prev, rpci := UInt8.ofNat (prev >>> rssiDecimalPointShift) }
  else { ap with prevRcpi := ap.rpci.toNat <<< rssiDecimalPointShift }

/-- Where a scan result goes. -/
inductive Place
  | duplicate (i : ℕ)
  | empty (i : ℕ)
  | worst (i : ℕ)
  | drop
deriving DecidableEq

/-- The choice of `i`. -/
def placeOf (st : Status) (low : ℕ) (bss : Bss) : Place :=
  if st.duplicate ≠ 0xff then .duplicate st.duplicate
  else if st.empty ≠ 0xff then .empty st.empty
  else if bss.rpci ≤ (st.apList low).rpci then .worst low
  else .drop

/-- The entry written for a scan result over an entry with the average `prevRcpi`. -/
def recordBss (env : ApEnv) (prevRcpi : ℕ) (bss : Bss) : Bss :=
  fineTuneRcpi { bss with lastProbeResp := env.currentTick, prevRcpi := prevRcpi }

/-- What the host application is told about an entry that was there before. -/
def modifyEvt (env : ApEnv) (i : ℕ) (e prev : Bss) : List (ℕ × ApAct) :=
  if e.ssid.toList.take e.ssidLen.toNat ≠ prev.ssid.toList.take e.ssidLen.toNat
      ∨ e.channelId ≠ prev.channelId ∨ e.proto ≠ prev.proto then updateApInfoEvt env i .modify
  else []

/-! ## The handler -/

/-- The list, and how many runs of `sta_mode_scan_timer` are pending. -/
structure MlmeState where
  apList : ApList
  pending : ℕ

/-- `refresh_timer`, without `CONFIG_AUTO_SCAN`. Cancelling takes one pending timer out. -/
def refreshTimer (totalAp pending : ℕ) : ℕ :=
  if 0 < totalAp then pending - 1 + 1 else pending - 1

/-- `sta_mode_ap_list_handler` with a scan result. -/
def handleScan (n : ℕ) (env : ApEnv) (bss : Bss) (s : MlmeState) :
    MlmeState × List (ℕ × ApAct) :=
  if bss.ssidLen = 0 then (s, [])
  else
    let st := getStatus env (some bss) n s.apList n
    match placeOf st (lowRcip st.apList n) bss with
    | .duplicate i =>
      let e := recordBss env (st.apList i).prevRcpi bss
      (⟨Function.update st.apList i e, refreshTimer st.totalAp s.pending⟩,
        st.evts ++ modifyEvt env i e (st.apList i))
    | .empty i =>
      let e := recordBss env (st.apList i).prevRcpi bss
      (⟨Function.update st.apList i e, refreshTimer st.totalAp s.pending⟩,
        st.evts ++ updateApInfoEvt env i .add)
    | .worst i =>
      let e := recordBss env 0 bss
      (⟨Function.update st.apList i e, refreshTimer st.totalAp s.pending⟩,
        st.evts ++ updateApInfoEvt env i .remove ++ updateApInfoEvt env i .add)
    | .drop => (⟨st.apList, s.pending⟩, st.evts)

/-- `sta_mode_ap_list_handler` without a scan result. -/
def handleTimer (n : ℕ) (env : ApEnv) (s : MlmeState) : MlmeState × List (ℕ × ApAct) :=
  let st := getStatus env none n s.apList n
  (⟨st.apList, refreshTimer st.totalAp s.pending⟩, st.evts)

/-- `sta_mode_scan_timer`: the timer that runs is no longer pending. -/
def staModeScanTimer (n : ℕ) (env : ApEnv) (s : MlmeState) : MlmeState × List (ℕ × ApAct) :=
  handleTimer n env { s with pending := s.pending - 1 }

/-- `mlme_remove_ap`. -/
def mlmeRemoveAp (n : ℕ) (env : ApEnv) (bssid : Vector UInt8 6) (s : MlmeState) :
    MlmeState × List (ℕ × ApAct) :=
  ({ s with apList := fun i => if i < n ∧ (s.apList i).bssid = bssid then .zero else s.apList i },
    ((List.range n).filter fun i => (s.apList i).bssid = bssid).flatMap fun i =>
      updateApInfoEvt env i .remove)

/-- `mlme_sta_mode_deinit`. -/
def mlmeStaModeDeinit (n : ℕ) (s : MlmeState) : MlmeState × List (ℕ × ApAct) :=
  (⟨fun i => if i < n then .zero else s.apList i, s.pending - 1⟩, [])

/-! ## Runs -/

/-- What happens to the list. -/
inductive MlmeInput
  | scanResult (env : ApEnv) (bss : Bss)
  | scanTimer (env : ApEnv)
  | removeAp (env : ApEnv) (bssid : Vector UInt8 6)
  | deinit

/-- What happened, with the list before and after it and the timers pending after it. -/
structure MlmeCall where
  input : MlmeInput
  before : ApList
  after : ApList
  pending : ℕ
  evts : List (ℕ × ApAct)

/-- One input. -/
def mlmeHandle (n : ℕ) (s : MlmeState) : MlmeInput → MlmeState × List (ℕ × ApAct)
  | .scanResult env bss => handleScan n env bss s
  | .scanTimer env => staModeScanTimer n env s
  | .removeAp env bssid => mlmeRemoveAp n env bssid s
  | .deinit => mlmeStaModeDeinit n s

/-- One input, recorded. -/
def mlmeStep (n : ℕ) (s : MlmeState) (i : MlmeInput) : MlmeState × List MlmeCall :=
  let r := mlmeHandle n s i
  (r.1, [⟨i, s.apList, r.1.apList, r.1.pending, r.2⟩])

/-- The list as the host has it after its initialisation. -/
def mlmeInit : MlmeState := ⟨fun _ => .zero, 0⟩

end Fullmac.Mlme
