import Fullmac.Rx.ReorderTable
import Fullmac.Lib.Table

/-!
# Receive filters

Reference: `host/core/txrx_hdl.c`, `RxHdl_SetWifiRxFlt`, `RxHdl_SetEthRxFlt` and
`_RxHdl_FrameProc`, with the tables of `RxHdl_Init`.

A received frame is shown to the callback of every filter that matches it before the driver itself
looks at it. A callback answers whether it took the frame. The loop over the filters keeps the last
answer only, and so does not stop at the first callback that takes the frame: whether the frame then
has two owners depends on which filters match (`takenOnce_iff`).

The build is the one of `host_config.h`, without access point mode. A filter has a callback; frames
whose `bssid_idx` is out of range, which only the promiscuous mode uses, are left out.
-/

namespace Fullmac.Rx

/-! ## Tables of filters -/

/-- `RXPKTFLT_NUM`. -/
def rxpktfltNum : ℕ := 5

/-- `struct wifi_flt` and `struct eth_flt`: what the filter looks for, and its callback. -/
structure RxFlt (μ : Type*) where
  pattern : μ
  cbFn : ℕ
deriving DecidableEq

/-- A table of filters, in which a slot without a callback is free, and the number of filters in
it. -/
structure FltTable (μ : Type*) where
  flt : Fin rxpktfltNum → Option (RxFlt μ)
  num : ℕ

/-- `ssv6xxx_cb_action`. -/
inductive FltAction
  | add | remove | mod
deriving DecidableEq, Repr

variable {μ : Type*}

/-- `RxHdl_Init`. -/
def FltTable.init : FltTable μ where
  flt _ := none
  num := 0

/-- The loop of `RxHdl_SetWifiRxFlt`: the last free slot and the last one with the callback. -/
def findFlt (t : FltTable μ) (cbFn : ℕ) :
    Option (Fin rxpktfltNum) × Option (Fin rxpktfltNum) :=
  (List.finRange rxpktfltNum).foldl
    (fun r i =>
      match t.flt i with
      | none => (some i, r.2)
      | some g => if cbFn = g.cbFn then (r.1, some i) else r)
    (none, none)

/-- What `RxHdl_SetWifiRxFlt` and `RxHdl_SetEthRxFlt` do to their tables. The counters have 8
bits. -/
def setRxFlt (flt : RxFlt μ) (act : FltAction) (t : FltTable μ) : Bool × FltTable μ :=
  let r := findFlt t flt.cbFn
  match act with
  | .add =>
    match r.1 with
    | some empty =>
      (true, { flt := Function.update t.flt empty (some flt), num := (t.num + 1) % 2 ^ 8 })
    | none => (false, t)
  | .remove =>
    match r.2 with
    | some exist =>
      (true, { flt := Function.update t.flt exist none, num := (t.num + 2 ^ 8 - 1) % 2 ^ 8 })
    | none => (false, t)
  | .mod =>
    match r.2 with
    | some exist => (true, { t with flt := Function.update t.flt exist (some flt) })
    | none => (false, t)

/-- `fc_b7b2` and `b7b2mask`. -/
structure WifiPattern where
  fcB7b2 : UInt8
  b7b2mask : UInt8
deriving DecidableEq

/-- `RxHdl_SetWifiRxFlt`. -/
def rxHdlSetWifiRxFlt (flt : RxFlt WifiPattern) (act : FltAction) (t : FltTable WifiPattern) :
    Bool × FltTable WifiPattern :=
  setRxFlt flt act t

/-- `RxHdl_SetEthRxFlt`; `ethtype` is what the filter looks for. -/
def rxHdlSetEthRxFlt (flt : RxFlt ℕ) (act : FltAction) (t : FltTable ℕ) : Bool × FltTable ℕ :=
  setRxFlt flt act t

/-- The filters for 802.11 frames after a sequence of calls. -/
def wifiFlts (calls : List (RxFlt WifiPattern × FltAction)) : FltTable WifiPattern :=
  calls.foldl (fun t c => (rxHdlSetWifiRxFlt c.1 c.2 t).2) .init

/-- The filters for Ethernet frames after a sequence of calls. -/
def ethFlts (calls : List (RxFlt ℕ × FltAction)) : FltTable ℕ :=
  calls.foldl (fun t c => (rxHdlSetEthRxFlt c.1 c.2 t).2) .init

/-! ## A received frame -/

/-- A frame with its bytes, from the data pointer of its descriptor on. -/
structure RxPkt where
  frame : RxFrame
  raw : ℕ → UInt8

/-- The 16-bit word at an offset, low byte first. -/
def RxPkt.word (p : RxPkt) (i : ℕ) : ℕ := (p.raw i).toNat + 2 ^ 8 * (p.raw (i + 1)).toNat

/-- The filter for 802.11 frames matches. -/
def RxPkt.matchesWifi (p : RxPkt) (m : WifiPattern) : Bool :=
  m.b7b2mask != 0 && (p.raw 0 >>> 2 &&& m.b7b2mask) == m.fcB7b2

/-- The filter for Ethernet frames matches. The type is in network order. -/
def RxPkt.matchesEth (p : RxPkt) (ethtype : ℕ) : Bool :=
  let ethType := 2 ^ 8 * (p.raw 12).toNat + (p.raw 13).toNat
  ethType != 0 && ethType == ethtype

/-- `IS_BAR`. -/
def isBar (fc : ℕ) : Bool := fc &&& 0xfc == 0x84

/-- `ssv6xxx_data_result`. -/
inductive DataResult
  | acpt | cont | queued
deriving DecidableEq, Repr

/-- What was done with a frame: it was shown to a callback, freed as a BAR, or passed to
`ieee80211_rx_reorder_ampdu`. -/
inductive RxUse
  | callback (cbFn : ℕ) (answer : DataResult)
  | bar (evs : List RxEvent)
  | reorder (evs : List RxEvent)
deriving DecidableEq

/-- The frame has a new owner, or none. -/
def RxUse.Takes : RxUse → Prop
  | .callback _ answer => answer ≠ .cont
  | _ => True

instance (u : RxUse) : Decidable u.Takes := by
  cases u <;> unfold RxUse.Takes <;> infer_instance

/-- The loop over a table: the callbacks of the filters that match, with their answers, and the last
answer. -/
def callFlts (t : FltTable μ) (hits : μ → Bool) (answers : Fin rxpktfltNum → DataResult) :
    List (Fin rxpktfltNum) → DataResult → DataResult × List RxUse
  | [], dataRet => (dataRet, [])
  | i :: is, dataRet =>
    match t.flt i with
    | none => callFlts t hits answers is dataRet
    | some g =>
      if hits g.pattern then
        let r := callFlts t hits answers is (answers i)
        (r.1, .callback g.cbFn (answers i) :: r.2)
      else callFlts t hits answers is dataRet

/-- The filters of `_RxHdl_FrameProc`. -/
def rxFilters (wifi : FltTable WifiPattern) (eth : FltTable ℕ)
    (answers : Fin rxpktfltNum → DataResult) (p : RxPkt) : DataResult × List RxUse :=
  if p.frame.f80211 then
    if wifi.num ≠ 0 then callFlts wifi p.matchesWifi answers (List.finRange rxpktfltNum) .cont
    else (.cont, [])
  else if eth.num ≠ 0 then callFlts eth p.matchesEth answers (List.finRange rxpktfltNum) .cont
  else (.cont, [])

/-- The rest of `_RxHdl_FrameProc`: a BAR moves its session and is freed, any other frame is passed
on. The fields of the BAR are `control` and `start_seq_num` of `struct ieee80211_bar`. -/
def rxDispatch (cfg : HostCfg) (env : Env) (t : BaTable) (p : RxPkt) : BaTable × RxUse :=
  if p.frame.f80211 && isBar (p.word 0) then
    let r := rxBarFrame cfg env t p.frame.wsid (p.word 16 >>> 12) (p.word 18 >>> 4)
    (r.1, .bar r.2)
  else
    let r := rxReorderAmpdu cfg env t p.frame
    (r.1, .reorder r.2)

/-- `_RxHdl_FrameProc`. -/
def rxHdlFrameProc (cfg : HostCfg) (env : Env) (wifi : FltTable WifiPattern) (eth : FltTable ℕ)
    (answers : Fin rxpktfltNum → DataResult) (p : RxPkt) (t : BaTable) : BaTable × List RxUse :=
  let r := rxFilters wifi eth answers p
  if r.1 ≠ .cont then (t, r.2)
  else
    let d := rxDispatch cfg env t p
    (d.1, r.2 ++ [d.2])

/-- One use takes the frame, and it is the last one. -/
def TakenOnce (uses : List RxUse) : Prop :=
  ∃ pre u, uses = pre ++ [u] ∧ u.Takes ∧ ∀ v ∈ pre, ¬ v.Takes

/-- The filters that match a frame, in the order of their slots. -/
def FltTable.hits (t : FltTable μ) (hits : μ → Bool) : List (Fin rxpktfltNum) :=
  (List.finRange rxpktfltNum).filter fun i => (t.flt i).any fun g => hits g.pattern

/-- The filters that match a frame: those of one table. -/
def RxPkt.hits (p : RxPkt) (wifi : FltTable WifiPattern) (eth : FltTable ℕ) :
    List (Fin rxpktfltNum) :=
  if p.frame.f80211 then wifi.hits p.matchesWifi else eth.hits p.matchesEth

/-! ## The number of filters -/

/-- The number of filters is that of the slots in use. -/
def FltTable.Counted (t : FltTable μ) : Prop := t.num = Table.count Option.isSome t.flt

/-- The loop finds what it is to find. -/
theorem findFlt_spec (t : FltTable μ) (cbFn : ℕ) :
    (∀ i, (findFlt t cbFn).1 = some i → t.flt i = none) ∧
      ∀ i, (findFlt t cbFn).2 = some i → ∃ g, t.flt i = some g ∧ g.cbFn = cbFn := by
  unfold findFlt
  refine List.foldlRecOn (List.finRange rxpktfltNum) _
    (motive := fun r : Option (Fin rxpktfltNum) × Option (Fin rxpktfltNum) =>
      (∀ i, r.1 = some i → t.flt i = none) ∧
        ∀ i, r.2 = some i → ∃ g, t.flt i = some g ∧ g.cbFn = cbFn) (by simp) ?_
  rintro r ⟨hempty, hexist⟩ j -
  cases hj : t.flt j with
  | none => exact ⟨fun i hi => Option.some.inj hi ▸ hj, hexist⟩
  | some g =>
    dsimp only
    split
    · rename_i hcb
      exact ⟨hempty, fun i hi => ⟨g, Option.some.inj hi ▸ hj, hcb.symm⟩⟩
    · exact ⟨hempty, hexist⟩

theorem FltTable.counted_init : (FltTable.init : FltTable μ).Counted :=
  (Table.count_eq_zero fun _ => rfl).symm

/-- A call keeps the number. -/
theorem FltTable.Counted.set {t : FltTable μ} (h : t.Counted) (flt : RxFlt μ) (act : FltAction) :
    (setRxFlt flt act t).2.Counted := by
  obtain ⟨hempty, hexist⟩ := findFlt_spec t flt.cbFn
  have hle : Table.count Option.isSome t.flt ≤ 5 := Table.count_le Option.isSome t.flt
  rw [Counted] at h
  cases act with
  | add =>
    simp only [setRxFlt]
    split
    · rename_i i hi
      have hcount := Table.count_update_succ (p := Option.isSome) (t := t.flt) (i := i)
        (a := some flt) (by simp [hempty i hi]) rfl
      simp only [Counted, hcount]
      omega
    · exact h
  | remove =>
    simp only [setRxFlt]
    split
    · rename_i i hi
      obtain ⟨g, hg, -⟩ := hexist i hi
      have hcount := Table.count_update_pred (p := Option.isSome) (t := t.flt) (i := i)
        (a := none) (by simp [hg]) rfl
      simp only [Counted]
      omega
    · exact h
  | mod =>
    simp only [setRxFlt]
    split
    · rename_i i hi
      obtain ⟨g, hg, -⟩ := hexist i hi
      rw [Counted, Table.count_update_of_eq (by simp [hg])]
      exact h
    · exact h

/-- After every sequence of calls. -/
theorem counted_foldl_setRxFlt (calls : List (RxFlt μ × FltAction)) :
    (calls.foldl (fun t c => (setRxFlt c.1 c.2 t).2) FltTable.init).Counted :=
  List.foldlRecOn calls _ (motive := FltTable.Counted) FltTable.counted_init
    fun _ ht c _ => ht.set c.1 c.2

theorem counted_wifiFlts (calls : List (RxFlt WifiPattern × FltAction)) :
    (wifiFlts calls).Counted :=
  counted_foldl_setRxFlt calls

theorem counted_ethFlts (calls : List (RxFlt ℕ × FltAction)) : (ethFlts calls).Counted :=
  counted_foldl_setRxFlt calls

/-- Without filters nothing matches. -/
theorem FltTable.Counted.hits_eq_nil {t : FltTable μ} (h : t.Counted) (hnum : t.num = 0)
    (hits : μ → Bool) : t.hits hits = [] := by
  refine List.filter_eq_nil_iff.mpr fun i _ hi => ?_
  have hsome : (t.flt i).isSome = true := by
    cases hf : t.flt i with
    | none => simp [hf] at hi
    | some g => rfl
  have hpos := Table.count_pos hsome
  rw [Counted] at h
  omega

/-! ## One owner -/

theorem takenOnce_concat {pre : List RxUse} {u : RxUse} :
    TakenOnce (pre ++ [u]) ↔ u.Takes ∧ ∀ v ∈ pre, ¬ v.Takes := by
  constructor
  · rintro ⟨pre', u', heq, htakes, hnone⟩
    obtain ⟨rfl, hu⟩ := List.append_inj' heq rfl
    obtain rfl : u = u' := by simpa using hu
    exact ⟨htakes, hnone⟩
  · rintro ⟨htakes, hnone⟩
    exact ⟨pre, u, rfl, htakes, hnone⟩

/-- The loop calls the filters that match and keeps the last answer. -/
theorem callFlts_eq (t : FltTable μ) (hits : μ → Bool) (answers : Fin rxpktfltNum → DataResult)
    (is : List (Fin rxpktfltNum)) (dataRet : DataResult) :
    let called := is.filter fun i => (t.flt i).any fun g => hits g.pattern
    callFlts t hits answers is dataRet
      = (called.foldl (fun _ i => answers i) dataRet,
          called.map fun i => .callback ((t.flt i).elim 0 RxFlt.cbFn) (answers i)) := by
  induction is generalizing dataRet with
  | nil => rfl
  | cons i is ih =>
    cases hi : t.flt i with
    | none => simpa [callFlts, hi] using ih dataRet
    | some g =>
      cases hg : hits g.pattern with
      | false => simpa [callFlts, hi, hg] using ih dataRet
      | true => simp [callFlts, hi, hg, ih]

/-- The filters of a frame, for tables that were filled by calls. -/
theorem rxFilters_eq {wifi : FltTable WifiPattern} {eth : FltTable ℕ} (hwifi : wifi.Counted)
    (heth : eth.Counted) (answers : Fin rxpktfltNum → DataResult) (p : RxPkt) :
    ∃ cb : Fin rxpktfltNum → ℕ, rxFilters wifi eth answers p
      = ((p.hits wifi eth).foldl (fun _ i => answers i) .cont,
          (p.hits wifi eth).map fun i => .callback (cb i) (answers i)) := by
  cases hf : p.frame.f80211 with
  | true =>
    refine ⟨fun i => (wifi.flt i).elim 0 RxFlt.cbFn, ?_⟩
    by_cases hnum : wifi.num = 0
    · simp [rxFilters, RxPkt.hits, hf, hnum, hwifi.hits_eq_nil hnum]
    · simp only [rxFilters, RxPkt.hits, hf, if_true, ne_eq, hnum, not_false_eq_true]
      exact callFlts_eq wifi p.matchesWifi answers _ .cont
  | false =>
    refine ⟨fun i => (eth.flt i).elim 0 RxFlt.cbFn, ?_⟩
    by_cases hnum : eth.num = 0
    · simp [rxFilters, RxPkt.hits, hf, hnum, heth.hits_eq_nil hnum]
    · simp only [rxFilters, RxPkt.hits, hf, Bool.false_eq_true, if_false, ne_eq, hnum,
        not_false_eq_true, if_true]
      exact callFlts_eq eth p.matchesEth answers _ .cont

theorem takes_rxDispatch (cfg : HostCfg) (env : Env) (t : BaTable) (p : RxPkt) :
    (rxDispatch cfg env t p).2.Takes := by
  unfold rxDispatch
  split <;> trivial

/-- Whatever filters were set, a frame is taken once, by a callback or by the rest of the function,
and nothing is done with it afterwards, exactly when of the filters that match it none but the last
takes it. -/
theorem takenOnce_iff (wifiCalls : List (RxFlt WifiPattern × FltAction))
    (ethCalls : List (RxFlt ℕ × FltAction)) (cfg : HostCfg) (env : Env)
    (answers : Fin rxpktfltNum → DataResult) (p : RxPkt) (t : BaTable) :
    TakenOnce (rxHdlFrameProc cfg env (wifiFlts wifiCalls) (ethFlts ethCalls) answers p t).2
      ↔ ∀ i ∈ (p.hits (wifiFlts wifiCalls) (ethFlts ethCalls)).dropLast, answers i = .cont := by
  obtain ⟨cb, hcalls⟩ :=
    rxFilters_eq (counted_wifiFlts wifiCalls) (counted_ethFlts ethCalls) answers p
  have hrest := takes_rxDispatch cfg env t p
  have hcallback : ∀ l : List (Fin rxpktfltNum),
      (∀ v ∈ l.map fun i => RxUse.callback (cb i) (answers i), ¬ v.Takes)
        ↔ ∀ i ∈ l, answers i = .cont := by
    intro l
    simp [RxUse.Takes]
  simp only [rxHdlFrameProc, hcalls]
  rcases List.eq_nil_or_concat' (p.hits (wifiFlts wifiCalls) (ethFlts ethCalls)) with
    hnil | ⟨l, i, hl⟩
  · -- no filter matches
    simp only [hnil, List.map_nil, List.foldl_nil, ne_eq, not_true_eq_false, if_false,
      List.dropLast_nil, List.not_mem_nil, false_imp_iff, implies_true, iff_true]
    exact takenOnce_concat.mpr ⟨hrest, by simp⟩
  rw [hl, List.dropLast_concat, List.foldl_concat, ← hcallback l]
  by_cases hlast : answers i = .cont
  · -- the last filter leaves the frame to the rest
    have hown := hcallback (l ++ [i])
    simp only [hlast, ne_eq, not_true_eq_false, if_false]
    rw [takenOnce_concat, and_iff_right hrest, hown, hcallback l, List.forall_mem_append]
    simp [hlast]
  · -- the last filter takes the frame
    have htakes : (RxUse.callback (cb i) (answers i)).Takes := hlast
    simp only [hlast, ne_eq, not_false_eq_true, if_true, List.map_append, List.map_singleton]
    rw [takenOnce_concat, and_iff_right htakes]

/-- Two filters for all 802.11 frames, whose callbacks both take what they are shown. -/
def overlapping : List (RxFlt WifiPattern × FltAction) :=
  [(⟨⟨0, 1⟩, 1⟩, .add), (⟨⟨0, 1⟩, 2⟩, .add)]

/-- A frame that both match is taken twice. -/
theorem not_takenOnce_overlapping :
    ¬ TakenOnce (rxHdlFrameProc .default .ap (wifiFlts overlapping) (ethFlts []) (fun _ => .acpt)
      ⟨{ RxFrame.data 7 0 with f80211 := true }, fun _ => 0⟩ BaTable.zero).2 := by
  have huses : (rxHdlFrameProc .default .ap (wifiFlts overlapping) (ethFlts []) (fun _ => .acpt)
      ⟨{ RxFrame.data 7 0 with f80211 := true }, fun _ => 0⟩ BaTable.zero).2
        = [.callback 2 .acpt] ++ [.callback 1 .acpt] := by decide
  rw [huses, takenOnce_concat]
  exact fun h => h.2 _ (List.mem_singleton_self _) (by decide)

end Fullmac.Rx
