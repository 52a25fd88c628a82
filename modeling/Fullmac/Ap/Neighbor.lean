import Fullmac.Ap.Model
import Fullmac.Lib.Machine

/-!
# The neighbour access points

Reference: `host/ap/neighbor_ap_list.c`.

The access point keeps what the beacons of its neighbours say in a table of eight entries, to see
whether stations around it need protection. A beacon is recorded in the entry of its BSSID or in a
new one (`neighborListProcessBeacon`), and a timer drops what is too old (`apListTimer`). Both keep
the two flags `olbc` and `olbc_ht`.

An entry is free for `ap_get_ap` when its address is zero and for `ap_list_timer` when its time
stamp is, and `num_neighbor_ap` counts the entries apart from both.

What a change of a flag makes the access point do depends on its stations. It is an output here, in
the order of the source. The beacon template is left out, and so is the test that an interface is in
AP mode at all: the timer is one of an access point that is up.
-/

namespace Fullmac.Ap

/-- `AP_NEIGHBOR_AP_TABLE_MAX_SIZE`. -/
def neighborMax : ℕ := 8

instance : NeZero neighborMax := ⟨by decide⟩

/-- `AP_SUPP_RATES_MAX`. -/
def suppRatesMax : ℕ := 32

/-- `AP_MAX_SSID_LEN`. -/
def maxSsidLen : ℕ := 32

/-- `AP_TABLE_EXPIRATION_TIME`, in milliseconds. -/
def apTableExpirationTime : ℕ := 360000

/-- An index into `neighbor_ap_list`. -/
abbrev NeighborIdx := Fin neighborMax

/-- `struct neighbor_ap_info`; `erp` is `none` where the source has -1. -/
structure NeighborApInfo where
  addr : EtherAddr
  beaconInt : ℕ
  capability : ℕ
  supportedRates : List UInt8
  ssid : List UInt8
  ssidLen : ℕ
  wpa : Bool
  erp : Option UInt8
  channel : ℕ
  htSupport : Bool
  numBeacons : UInt32
  lastBeacon : UInt32
deriving DecidableEq

/-- `NULLADDR`. -/
def nullAddr : EtherAddr := Vector.replicate 6 0

/-- All bytes zero. -/
def NeighborApInfo.zero : NeighborApInfo where
  addr := nullAddr
  beaconInt := 0
  capability := 0
  supportedRates := List.replicate suppRatesMax 0
  ssid := List.replicate maxSsidLen 0
  ssidLen := 0
  wpa := false
  erp := some 0
  channel := 0
  htSupport := false
  numBeacons := 0
  lastBeacon := 0

/-- A beacon with its parsed elements. -/
structure Beacon where
  bssid : EtherAddr
  beaconInt : ℕ
  capabInfo : ℕ
  ssid : Option (List UInt8)
  suppRates : Option (List UInt8)
  extSuppRates : Option (List UInt8)
  wpaIe : Bool
  erpInfo : Option (List UInt8)
  dsParams : Option (List UInt8)
  htCapabilities : Bool

/-- What is configured of the access point's own BSS. -/
structure BssCfg where
  ap : ApCfg
  /-- `nCurrentChannel`. -/
  nCurrentChannel : ℕ
  /-- `config.b80211n`. -/
  b80211n : Bool
  /-- `config.secondary_channel` is not zero. -/
  secondaryChannel : Bool
  /-- `TICK_RATE_MS`. -/
  tickRateMs : ℕ

/-- `os_ms2tick(AP_TABLE_EXPIRATION_TIME)`. -/
def BssCfg.expiration (cfg : BssCfg) : UInt32 :=
  UInt32.ofNat (apTableExpirationTime / cfg.tickRateMs)

/-- The part of `ApInfo_st` about the neighbours. -/
structure Neighbors where
  list : NeighborIdx → NeighborApInfo
  numNeighborAp : ℕ
  olbc : Bool
  olbcHt : Bool

/-- `reset_neighbor_apinfo`. -/
def resetNeighborApinfo : Neighbors where
  list := fun _ => .zero
  numNeighborAp := 0
  olbc := false
  olbcHt := false

variable (cfg : BssCfg)

/-- `time_before`, with a `long` of 32 bits: the difference is taken as a signed number. -/
def timeBefore (a b : UInt32) : Bool := 2 ^ 31 ≤ (a - b).toNat

/-- `ap_list_beacon_olbc`. -/
def apListBeaconOlbc (ap : NeighborApInfo) : Bool :=
  if !cfg.ap.modeG || cfg.nCurrentChannel != ap.channel then false
  else if ap.erp.any (fun erp => erp.toNat.testBit 0) then true
  else
    !ap.supportedRates.any fun r =>
      let rate := r.toNat % 128 * 5
      rate == 60 || rate == 90 || decide (110 < rate)

/-- `ap_get_ap`. -/
def apGetAp (list : NeighborIdx → NeighborApInfo) (mac : EtherAddr) : Option NeighborIdx :=
  (List.finRange neighborMax).find? fun i => (list i).addr = mac

/-- `ap_free_ap`. -/
def apFreeAp (n : Neighbors) (i : NeighborIdx) : Neighbors :=
  { n with
    list := Function.update n.list i .zero
    numNeighborAp := dec8 n.numNeighborAp }

/-- The loop of `ap_ap_add` that looks for the entry with the oldest beacon. -/
def leastRecent (list : NeighborIdx → NeighborApInfo) : NeighborIdx :=
  (List.finRange neighborMax).tail.foldl
    (fun ap i => if timeBefore (list i).lastBeacon (list ap).lastBeacon then i else ap) 0

/-- `ap_ap_add`. Where the source has no entry it writes through the null pointer. -/
def apApAdd (n : Neighbors) (addr : EtherAddr) : Option NeighborIdx × Neighbors :=
  -- counted before there is an entry; `ap_free_ap` takes one off again
  let n := { n with numNeighborAp := inc8 n.numNeighborAp }
  let full := decide (neighborMax < n.numNeighborAp)
  let ap := if full then some (leastRecent n.list) else apGetAp n.list nullAddr
  let n := if full then apFreeAp n (leastRecent n.list) else n
  match ap with
  | none => (none, n)
  | some i =>
    (some i, { n with list := Function.update n.list i { n.list i with addr := addr } })

/-- The rates of a beacon: `supp_rates`, then as much of `ext_supp_rates` as has room, then zeros.
-/
def beaconRates (b : Beacon) : List UInt8 :=
  let rates := (b.suppRates.getD []).take suppRatesMax
  let rates := rates ++ (b.extSuppRates.getD []).take (suppRatesMax - rates.length)
  rates ++ List.replicate (suppRatesMax - rates.length) 0

/-- What `neighbor_ap_list_process_beacon` writes into the entry. -/
def recordBeacon (ap : NeighborApInfo) (b : Beacon) (now : UInt32) : NeighborApInfo :=
  { ap with
    beaconInt := b.beaconInt
    capability := b.capabInfo
    ssid := match b.ssid with
      | none => ap.ssid
      | some ssid => ssid.take maxSsidLen ++ ap.ssid.drop (ssid.take maxSsidLen).length
    ssidLen := match b.ssid with
      | none => ap.ssidLen
      | some ssid => (ssid.take maxSsidLen).length
    supportedRates := beaconRates b
    wpa := b.wpaIe
    erp := match b.erpInfo with
      | some [erp] => some erp
      | _ => none
    channel := match b.dsParams with
      | some [channel] => channel.toNat
      | _ => ap.channel
    htSupport := b.htCapabilities
    numBeacons := ap.numBeacons + 1
    lastBeacon := now }

/-- What the rest of the access point has to do: send that ERP protection is on, send that it is off
if no station needs it, bring the HT operation mode up to date and send it. -/
inductive Overlap
  | olbcSet | olbcCleared | olbcHtChanged
deriving DecidableEq, Repr

/-- The end of `neighbor_ap_list_process_beacon`: the flags. -/
def noteOverlap (n : Neighbors) (ap : NeighborApInfo) : Neighbors × List Overlap :=
  let olbc := cfg.ap.erp && !n.olbc && apListBeaconOlbc cfg ap
  let olbcHt := !n.olbcHt && !ap.htSupport
  ({ n with olbc := n.olbc || olbc, olbcHt := n.olbcHt || olbcHt },
    (if olbc then [.olbcSet] else []) ++ if olbcHt then [.olbcHtChanged] else [])

/-- `neighbor_ap_list_process_beacon`. -/
def neighborListProcessBeacon (n : Neighbors) (b : Beacon) (now : UInt32) :
    Neighbors × List Overlap :=
  let r := match apGetAp n.list b.bssid with
    | some i => (some i, n)
    | none => apApAdd n b.bssid
  match r.1 with
  | none => (r.2, [])
  | some i =>
    let ap := recordBeacon (r.2.list i) b now
    noteOverlap cfg { r.2 with list := Function.update r.2.list i ap } ap

/-- The variables of the loop of `ap_list_timer`. -/
structure ListWalk where
  n : Neighbors
  olbc : Bool
  olbcHt : Bool

/-- One iteration of the loop of `ap_list_timer`. -/
def listTimerStep (now : UInt32) (w : ListWalk) (i : NeighborIdx) : ListWalk :=
  let ap := w.n.list i
  if ap.lastBeacon = 0 then w
  else if timeBefore (ap.lastBeacon + cfg.expiration) now then { w with n := apFreeAp w.n i }
  else if w.n.olbc || w.n.olbcHt then
    -- nothing more to find
    if w.olbc && w.olbcHt then w
    else { w with
      olbc := w.olbc || apListBeaconOlbc cfg ap
      olbcHt := w.olbcHt || !ap.htSupport }
  else w

/-- `ap_list_timer`. -/
def apListTimer (n : Neighbors) (now : UInt32) : Neighbors × List Overlap :=
  let w := (List.finRange neighborMax).foldl (listTimerStep cfg now) ⟨n, false, false⟩
  let cleared := cfg.ap.erp && !w.olbc && w.n.olbc
  let clearedHt := !w.olbcHt && w.n.olbcHt
  ({ w.n with olbc := w.n.olbc && !cleared, olbcHt := w.n.olbcHt && !clearedHt },
    (if cleared then [.olbcCleared] else []) ++ if clearedHt then [.olbcHtChanged] else [])

/-- A beacon is received, or the timer fires, at a tick. -/
inductive NeighborIn
  | beacon (b : Beacon) (now : UInt32)
  | listTimer (now : UInt32)

/-- One step. -/
def neighborStep (n : Neighbors) : NeighborIn → Neighbors × List Overlap
  | .beacon b now => neighborListProcessBeacon cfg n b now
  | .listTimer now => apListTimer cfg n now

/-- A run from the empty table. -/
abbrev neighborRun (is : List NeighborIn) : Neighbors × List Overlap :=
  Machine.run (neighborStep cfg) resetNeighborApinfo is

end Fullmac.Ap
