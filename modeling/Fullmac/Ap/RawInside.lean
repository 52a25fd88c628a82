import Fullmac.Ap.Lattice
import Fullmac.Ap.Raw

/-!
# Which frames are read from the inside

`rxHandleApMode_inside_iff` says for every frame, whatever its length and contents, whether handling
it stays inside it. Most of the parsing does: the elements that `parseElems` finds are inside what
it was given, and the copies into `supported_rates` and into the text of an SSID are capped. What is
left over is `FrameFits`.

* The dispatcher reads the frame control of a frame of any length, and the sender as soon as there
  is a station to compare it with.
* A probe request has no smallest length, and the length of its elements is the difference of
  unsigned numbers.
* `qos_info` of a WMM element and 26 bytes of HT capabilities are read of elements of any length.
* EAPOL frames are believed the length they say they have.
-/

namespace Fullmac.Ap.Raw

open Bytes (Mem slice getU16)
open Reads
open Tlv

variable {cfg : ApCfg} {n : ℕ} {m : Mem}

/-! ## Addresses -/

@[simp] theorem val_readAddr (m : Mem) (off : ℕ) : val m (readAddr off) = addrAt m off := (rfl)

@[simp] theorem inside_readAddr {off : ℕ} : Inside n m (readAddr off) ↔ off + 6 ≤ n := by
  have hslice : Inside n m (readAddr off) ↔ Inside n m (readSlice off 6) := Iff.rfl
  rw [hslice, inside_readSlice]
  omega

/-- Somebody is in the table. -/
def AnyStation (s : ApInfo cfg) : Prop := ∃ i, (s.sta i).valid

instance (s : ApInfo cfg) : Decidable (AnyStation s) :=
  inferInstanceAs (Decidable (∃ i, (s.sta i).valid))

theorem inside_findLoop {s : ApInfo cfg} {mac : ℕ} {is : List (StaIdx cfg)} :
    Inside n m (findLoop s mac is) ↔ ((∃ i ∈ is, (s.sta i).valid) → mac + 6 ≤ n) := by
  induction is with
  | nil => simp [findLoop]
  | cons i is ih =>
    rw [findLoop, inside_ite, inside_bind, inside_readAddr, inside_ite, ih]
    by_cases hv : (s.sta i).valid
    · simp only [hv, List.mem_cons, exists_eq_or_imp, true_or, forall_const, not_true_eq_false,
        false_implies, and_true]
      exact ⟨fun h => h.1, fun h => ⟨h, fun _ => inside_pure n m _, fun _ _ => h⟩⟩
    · simp [hv]

/-- The table is searched inside if it is empty or the address is. -/
@[simp] theorem inside_findStaByAddr {s : ApInfo cfg} {mac : ℕ} :
    Inside n m (findStaByAddr s mac) ↔ (AnyStation s → mac + 6 ≤ n) := by
  simp only [findStaByAddr, inside_findLoop, List.mem_finRange, true_and, AnyStation]

theorem val_findLoop (s : ApInfo cfg) (mac : ℕ) (is : List (StaIdx cfg)) :
    val m (findLoop s mac is)
      = is.find? fun i => (s.sta i).valid && (s.sta i).addr == addrAt m mac := by
  induction is with
  | nil => rfl
  | cons i is ih =>
    rw [findLoop, val_ite, val_bind, val_ite, val_readAddr, ih, val_pure, List.find?_cons]
    by_cases hv : (s.sta i).valid
    · by_cases ha : (s.sta i).addr = addrAt m mac
      · simp [hv, ha]
      · simp [hv, ha, beq_eq_false_iff_ne.mpr ha]
    · simp [hv]

@[simp] theorem val_findStaByAddr (m : Mem) (s : ApInfo cfg) (mac : ℕ) :
    val m (findStaByAddr s mac) = Ap.findStaByAddr s (addrAt m mac) :=
  val_findLoop s mac _

/-! ## Elements -/

section Elements

variable {e : Elem}

theorem inside_printSsid (h : e.off + e.len ≤ n) : Inside n m (printSsid e) := by
  simp only [printSsid, inside_bind, inside_readSlice, inside_fill]
  omega

theorem inside_isOwnSsid (h : e.off + e.len ≤ n) : Inside n m (isOwnSsid cfg e) := by
  rw [isOwnSsid, inside_ite]
  exact ⟨fun _ => inside_memcmp h, fun _ => inside_pure n m _⟩

theorem val_isOwnSsid (cfg : ApCfg) (e : Elem) :
    val m (isOwnSsid cfg e) = decide (e.bytes m = cfg.ssid) := by
  rw [isOwnSsid, val_ite, val_memcmp, val_pure]
  by_cases hlen : e.len = cfg.ssid.length
  · rw [if_pos hlen]
    rfl
  · rw [if_neg hlen, eq_comm, decide_eq_false_iff_not]
    intro hbytes
    rw [← hbytes, Elem.length_bytes] at hlen
    exact hlen rfl

theorem inside_checkSsid {ssid : Option Elem} (h : ∀ e, ssid = some e → e.off + e.len ≤ n) :
    Inside n m (checkSsid cfg ssid) := by
  cases ssid with
  | none => exact inside_pure n m _
  | some e =>
    have he := h e rfl
    simp only [checkSsid, inside_bind, inside_ite, inside_pure, implies_true, and_true, true_and]
    exact ⟨inside_isOwnSsid he, fun _ => inside_printSsid he⟩

/-- The SSID that is configured is accepted. -/
theorem val_checkSsid (cfg : ApCfg) (ssid : Option Elem) :
    val m (checkSsid cfg ssid)
      = if ssid.map (Elem.bytes m) = some cfg.ssid then .success else .unspecifiedFailure := by
  cases ssid with
  | none => simp [checkSsid]
  | some e =>
    rw [checkSsid, val_bind, val_ite, val_isOwnSsid]
    simp

theorem inside_hostapdEidWmmValid (h : e.off + e.len ≤ n) :
    Inside n m (hostapdEidWmmValid e) := by
  simp only [hostapdEidWmmValid, inside_ite, inside_bind, inside_read, inside_pure, implies_true,
    and_true, true_and]
  omega

/-- `qos_info` must be inside, however long the element is. -/
theorem inside_checkWmm {st : Station cfg} {wmm : Option Elem}
    (h : ∀ e, wmm = some e → e.off + e.len ≤ n) :
    Inside n m (checkWmm st wmm) ↔ ∀ e, wmm = some e → e.off + 7 ≤ n := by
  cases wmm with
  | none => simp [checkWmm]
  | some e =>
    have hvalid := inside_hostapdEidWmmValid (m := m) (h e rfl)
    simp only [checkWmm, inside_bind, inside_read, inside_pure, and_true, hvalid, true_and,
      Option.some.injEq, forall_eq']
    omega

theorem wmm_checkWmm (st : Station cfg) (wmm : Option Elem) :
    (val m (checkWmm st wmm)).wmm = wmm.isSome := by
  cases wmm <;> rfl

/-- The rates that a request tells of fit `supported_rates`. -/
def RatesFit (elems : Elements) : Prop :=
  ∃ supp, elems .suppRates = some supp ∧ supp.len ≤ 32 ∧
    ∀ ext, elems .extSuppRates = some ext → supp.len + ext.len ≤ 32

theorem inside_copyExtSuppRates {st : Station cfg} {rates : List UInt8} {ext : Option Elem}
    (h : ∀ e, ext = some e → e.off + e.len ≤ n) :
    Inside n m (copyExtSuppRates st rates ext) := by
  cases ext with
  | none => exact inside_pure n m _
  | some e =>
    have he := h e rfl
    simp only [copyExtSuppRates, inside_ite, inside_bind, inside_readSlice, inside_fill,
      inside_pure, implies_true, and_true, true_and]
    omega

theorem inside_copySuppRates {st : Station cfg} {elems : Elements}
    (h : ∀ k e, elems k = some e → e.off + e.len ≤ n) :
    Inside n m (copySuppRates st elems) := by
  rw [copySuppRates]
  cases hsupp : elems .suppRates with
  | none => exact inside_pure n m _
  | some supp =>
    have hsupp' := h .suppRates supp hsupp
    simp only [inside_ite, inside_bind, inside_readSlice, inside_fill, inside_pure, implies_true,
      true_and]
    exact fun h32 => ⟨.inr hsupp', by omega, inside_copyExtSuppRates (h .extSuppRates)⟩

theorem val_copyExtSuppRates (st : Station cfg) (rates : List UInt8) (ext : Option Elem) :
    (val m (copyExtSuppRates st rates ext)).1
        = (if ∀ e, ext = some e → rates.length + e.len ≤ 32 then .success
          else .unspecifiedFailure) ∧
      (val m (copyExtSuppRates st rates ext)).2.wmm = st.wmm := by
  cases ext with
  | none => simp [copyExtSuppRates]
  | some e =>
    rw [copyExtSuppRates, val_ite, val_bind, val_bind, val_pure, val_pure]
    by_cases h32 : 32 < rates.length + e.len
    · rw [if_pos h32]
      simp [h32]
    · rw [if_neg h32]
      simp [Nat.le_of_not_lt h32]

theorem val_copySuppRates (st : Station cfg) (elems : Elements) :
    ((val m (copySuppRates st elems)).1 = .success ↔ RatesFit elems) ∧
      (val m (copySuppRates st elems)).2.wmm = st.wmm := by
  rw [copySuppRates]
  cases hsupp : elems .suppRates with
  | none => simp [RatesFit, hsupp]
  | some supp =>
    have hfit : RatesFit elems ↔
        supp.len ≤ 32 ∧ ∀ ext, elems .extSuppRates = some ext → supp.len + ext.len ≤ 32 := by
      simp [RatesFit, hsupp]
    dsimp only
    rw [hfit, val_ite, val_bind, val_bind, val_readSlice]
    by_cases h32 : 32 < supp.len
    · rw [if_pos h32]
      simp [Nat.not_le_of_lt h32]
    · obtain ⟨hstatus, hwmm⟩ :=
        val_copyExtSuppRates (m := m) st (slice m supp.off supp.len) (elems .extSuppRates)
      rw [if_neg h32, hstatus, Bytes.length_slice]
      refine ⟨?_, hwmm⟩
      simp [Nat.le_of_not_lt h32]

/-- Twenty-six bytes must be inside, however long the element is. -/
theorem inside_copyStaHtCapab {st : Station cfg} {ht : Option Elem} :
    Inside n m (copyStaHtCapab st ht) ↔
      (st.wmm → cfg.disable11n = false → ∀ e, ht = some e → e.off + 26 ≤ n) := by
  cases ht with
  | none => simp [copyStaHtCapab]
  | some e =>
    simp only [copyStaHtCapab, inside_ite, inside_bind, inside_readU16, inside_readSlice,
      inside_fill, inside_pure, implies_true, and_true, true_and, Bool.or_eq_true,
      Bool.not_eq_true', not_or, Bool.not_eq_false, Bool.not_eq_true, Option.some.injEq,
      forall_eq', and_imp]
    refine forall_congr' fun _ => forall_congr' fun _ => ?_
    omega

/-- The elements that a parser has left stand in `len` bytes from `start` on. -/
def Sound (m : Mem) (start len : ℕ) (elems : Elements) : Prop :=
  ∀ k e, elems k = some e → Found m start len k e

theorem Sound.le {start len : ℕ} {elems : Elements} (h : Sound m start len elems)
    (hn : start + len ≤ n) (k : ElemKind) (e : Elem) (he : elems k = some e) :
    e.off + e.len ≤ n :=
  (h k e he).high.trans hn

theorem inside_checkWpaIe {conf : WpaAuthConfig} {start len : ℕ} {elems : Elements}
    (h : Sound m start len elems) (hn : start + len ≤ n) :
    Inside n m (checkWpaIe conf elems) := by
  rw [checkWpaIe, inside_ite]
  refine ⟨fun _ => inside_pure n m _, fun _ => ?_⟩
  cases hpick : pickWpaIe conf elems with
  | none => exact inside_pure n m _
  | some e =>
    rw [pickWpaIe] at hpick
    have hle : ∀ k, elems k = some e → e.off - 2 + (e.len + 2) ≤ n := by
      intro k hk
      have hlow := (h k e hk).low
      have hhigh := h.le hn k e hk
      omega
    split_ifs at hpick with hrsn hwpa
    · exact inside_wpaValidateWpaIe (.inl (h _ e hpick).rsnIe) (hle _ hpick)
    · have h4 := (h _ e hpick).wpaIe
      exact inside_wpaValidateWpaIe (.inr (by omega)) (hle _ hpick)

/-- What a request must look like for the checks of its elements to stay inside. -/
def ElemsFit (cfg : ApCfg) (m : Mem) (n : ℕ) (elems : Elements) : Prop :=
  (elems .ssid).map (Elem.bytes m) = some cfg.ssid → ∀ wmm, elems .wmm = some wmm →
    wmm.off + 7 ≤ n ∧
    (RatesFit elems → cfg.disable11n = false →
      ∀ ht, elems .htCapabilities = some ht → ht.off + 26 ≤ n)

theorem inside_checkElems {conf : WpaAuthConfig} {st : Station cfg} {start len : ℕ}
    {elems : Elements} (h : Sound m start len elems) (hn : start + len ≤ n) :
    Inside n m (checkElems conf st elems) ↔ ElemsFit cfg m n elems := by
  have hle := h.le hn
  have hwmm := wmm_checkWmm (m := m) st (elems .wmm)
  obtain ⟨hrates, hkept⟩ := val_copySuppRates (m := m) (val m (checkWmm st (elems .wmm))) elems
  simp only [checkElems, inside_bind, inside_ite, inside_checkSsid (hle .ssid), val_checkSsid,
    inside_checkWmm (hle .wmm), inside_copySuppRates hle, inside_copyStaHtCapab,
    inside_checkWpaIe h hn, inside_pure, implies_true, and_true, true_and, ne_eq, hrates, hkept,
    hwmm, not_not, ite_eq_left_iff, reduceCtorEq, imp_false]
  refine forall_congr' fun _ => ?_
  constructor
  · rintro ⟨hqos, hht⟩ wmm hwmm
    exact ⟨hqos wmm hwmm, fun hr => hht hr (hwmm ▸ rfl)⟩
  · intro hfit
    refine ⟨fun wmm hwmm => (hfit wmm hwmm).1, fun hr hsome => ?_⟩
    obtain ⟨wmm, hwmm⟩ := Option.isSome_iff_exists.mp hsome
    exact (hfit wmm hwmm).2 hr

theorem inside_checkAssocIes {conf : WpaAuthConfig} {st : Station cfg} {ies iesLen : ℕ}
    (h : ies + iesLen ≤ n) :
    Inside n m (checkAssocIes conf st ies iesLen) ↔
      ∀ es, Fills m ies iesLen es → ElemsFit cfg m n (lastOf (kindAt m) es) := by
  have hsound : Sound m ies iesLen (val m (parseElems ies iesLen)).2 :=
    fun _ _ => parseElems_found
  rw [checkAssocIes, inside_bind, inside_parseElems (by omega), inside_ite,
    inside_checkElems hsound h]
  constructor
  · rintro ⟨-, -, hfit⟩ es hes
    obtain ⟨hres, helems⟩ := parseElems_of_fills hes
    rw [← helems]
    exact hfit hres
  · refine fun hfit => ⟨h, fun _ => inside_pure n m _, fun hres => ?_⟩
    obtain ⟨es, hes, -⟩ := parseElems_accepts_iff.mp hres
    rw [(parseElems_of_fills hes).2]
    exact hfit es hes

end Elements

/-! ## Association -/

/-- What an association request must look like. Nothing is asked of one that is turned down before
its elements are looked at. -/
def AssocFits (s : ApInfo cfg) (env : RxEnv) (m : Mem) (n : ℕ) (reassoc : Bool) : Prop :=
  ∀ i, Ap.findStaByAddr s (addrAt m saOff) = some i → (s.sta i).auth →
    env.tkipCountermeasures = false → getU16 m 26 ≤ maxListenInterval →
    ∀ es, Fills m (assocIes reassoc) (n - assocIes reassoc) es →
      ElemsFit cfg m n (lastOf (kindAt m) es)

theorem assocIes_ge (reassoc : Bool) : 28 ≤ assocIes reassoc := by
  cases reassoc <;> decide

theorem inside_logReassoc {reassoc : Bool} (h : assocIes reassoc ≤ n) :
    Inside n m (logReassoc reassoc) := by
  cases reassoc with
  | false => exact inside_pure n m _
  | true =>
    have h34 : 34 ≤ n := h
    simp only [logReassoc, if_true, inside_bind, inside_readAddr, inside_pure, and_true, saOff]
    omega

theorem inside_copyPreviousAp {reassoc : Bool} (h : assocIes reassoc ≤ n) :
    Inside n m (copyPreviousAp reassoc) := by
  cases reassoc with
  | false => exact inside_pure n m _
  | true =>
    have h34 : 34 ≤ n := h
    simp only [copyPreviousAp, if_true, inside_bind, inside_readAddr, inside_fill]
    omega

theorem inside_acceptAssoc {s : ApInfo cfg} {i : StaIdx cfg} {r : AssocReq}
    (h : assocIes r.reassoc ≤ n) (c : Status × Station cfg) :
    Inside n m (acceptAssoc s i r c) := by
  rw [acceptAssoc, inside_ite]
  refine ⟨fun _ => inside_pure n m _, fun _ => ?_⟩
  split
  · exact inside_pure n m _
  · rw [inside_bind]
    exact ⟨inside_copyPreviousAp h, inside_pure n m _⟩

theorem inside_tryAssoc {s : ApInfo cfg} {env : RxEnv} {i : StaIdx cfg} {r : AssocReq}
    (h : assocIes r.reassoc ≤ n) :
    Inside n m (tryAssoc s env n i r) ↔
      (env.tkipCountermeasures = false → r.listenInterval ≤ maxListenInterval →
        ∀ es, Fills m (assocIes r.reassoc) (n - assocIes r.reassoc) es →
          ElemsFit cfg m n (lastOf (kindAt m) es)) := by
  simp only [tryAssoc, inside_ite, inside_bind, inside_pure, implies_true, true_and,
    inside_acceptAssoc h, and_true, Bool.not_eq_true, Nat.not_lt,
    inside_checkAssocIes (Nat.add_sub_of_le h).le]

theorem inside_refuseAssoc {s : ApInfo cfg} (h : 16 ≤ n) : Inside n m (refuseAssoc s) := by
  rw [refuseAssoc, inside_bind, inside_readAddr]
  exact ⟨h, inside_pure n m _⟩

theorem inside_handleAssoc {s : ApInfo cfg} {env : RxEnv} {reassoc : Bool} :
    Inside n m (handleAssoc s env n reassoc) ↔
      (assocIes reassoc ≤ n → AssocFits s env m n reassoc) := by
  rw [handleAssoc, inside_ite, Nat.not_lt]
  simp only [inside_pure, implies_true, true_and]
  refine forall_congr' fun hlen => ?_
  have h28 := (assocIes_ge reassoc).trans hlen
  have hrefuse : Inside n m (refuseAssoc s) := inside_refuseAssoc (by omega)
  have hhead : 24 + 1 < n ∧ 26 + 1 < n ∧ saOff + 6 ≤ n := by
    rw [saOff]
    omega
  simp only [inside_bind, inside_readU16, hhead, inside_logReassoc hlen, inside_findStaByAddr,
    implies_true, true_and, val_findStaByAddr]
  rw [AssocFits]
  cases hfind : Ap.findStaByAddr s (addrAt m saOff) with
  | none => simp [hrefuse]
  | some i =>
    simp only [inside_ite, hrefuse, implies_true, true_and, inside_bind, inside_pure, and_true,
      Option.some.injEq, forall_eq']
    rw [inside_tryAssoc hlen]
    simp

/-! ## The other handlers -/

theorem sizeSub_of_le {a b : ℕ} (ha : a < 65536) (h : b ≤ a) : sizeSub a b = a - b := by
  rw [sizeSub]
  omega

/-- A length that is too short becomes a very large one. -/
theorem sizeSub_of_lt {a b : ℕ} (hb : b < 65536) (h : a < b) : 65536 < sizeSub a b := by
  rw [sizeSub]
  omega

theorem inside_answerProbe {s : ApInfo cfg} {sta : Option (StaIdx cfg)} {elems : Elements}
    (h : ∀ k e, elems k = some e → e.off + e.len ≤ n) (h16 : 16 ≤ n) :
    Inside n m (answerProbe s sta elems) := by
  have hsa : saOff + 6 ≤ n := h16
  rw [answerProbe]
  split
  · next ssid _ hssid _ =>
    have he := h .ssid ssid hssid
    simp only [lookAgain, asksForUs, inside_bind, inside_ite, inside_findStaByAddr,
      inside_readAddr, inside_isOwnSsid he, inside_printSsid he, inside_pure, hsa, implies_true,
      and_true]
  · simp only [inside_bind, inside_readAddr, inside_pure, hsa, and_true]

/-- A probe request that is parsed must have a header at least. -/
theorem inside_rxProbeRequest {s : ApInfo cfg} {env : RxEnv} (hn : n < 65536)
    (hsa : AnyStation s → 16 ≤ n) :
    Inside n m (rxProbeRequest s env n) ↔
      ((Ap.findStaByAddr s (addrAt m saOff)).isSome ∨ env.probeAllowed → hdrLen ≤ n) := by
  have hgo : (¬ ((Ap.findStaByAddr s (addrAt m saOff)).isNone && !env.probeAllowed) = true) ↔
      ((Ap.findStaByAddr s (addrAt m saOff)).isSome ∨ env.probeAllowed) := by
    cases Ap.findStaByAddr s (addrAt m saOff) <;> simp
  rw [rxProbeRequest, inside_bind, inside_findStaByAddr, val_findStaByAddr, inside_ite, hgo,
    inside_bind]
  simp only [inside_pure, implies_true, true_and]
  constructor
  · rintro ⟨-, h⟩ hp
    by_contra hlt
    have hhand := (h hp).1
    rw [parseElems, inside_bind, inside_hand] at hhand
    have hlarge := sizeSub_of_lt (b := hdrLen) (by decide) (Nat.lt_of_not_le hlt)
    omega
  · refine fun h => ⟨hsa, fun hp => ?_⟩
    have h24 := h hp
    have h24' : 24 ≤ n := h24
    have hsum : hdrLen + (n - hdrLen) = n := Nat.add_sub_of_le h24
    have hadr : saOff + 6 ≤ n := by
      rw [saOff]
      omega
    rw [sizeSub_of_le hn h24, inside_parseElems h24, hsum]
    simp only [inside_ite, inside_bind, inside_readAddr, hadr, inside_pure, and_true,
      implies_true, le_refl, true_and]
    refine fun _ => inside_answerProbe (fun k e he => ?_) (by omega)
    exact (parseElems_found he).high.trans hsum.le

theorem inside_copyCapped {size used : ℕ} {e : Elem} (h : e.off + e.len ≤ n)
    (hused : used ≤ size) : Inside n m (copyCapped size used e) := by
  simp only [copyCapped, inside_bind, inside_readSlice, inside_fill]
  omega

theorem inside_readSingle {e : Elem} (h : e.off + e.len ≤ n) : Inside n m (readSingle e) := by
  simp only [readSingle, inside_ite, inside_bind, inside_read, inside_pure, implies_true, and_true]
  omega

theorem usedRates_le (elems : Elements) : usedRates elems ≤ 32 := by
  rw [usedRates]
  split
  · exact Nat.zero_le 32
  · exact Nat.min_le_right _ _

theorem inside_rxBeacon {env : RxEnv} : Inside n m (rxBeacon env n) := by
  rw [rxBeacon, inside_ite]
  refine ⟨fun _ => inside_pure n m _, fun hlen => ?_⟩
  have hlen' : hdrLen + 12 ≤ n := Nat.le_of_not_lt hlen
  have h36 : 36 ≤ n := hlen'
  have hsum : hdrLen + 12 + (n - (hdrLen + 12)) = n := Nat.add_sub_of_le hlen'
  have hle : ∀ k e, (val m (parseElems (hdrLen + 12) (n - (hdrLen + 12)))).2 k = some e →
      e.off + e.len ≤ n := fun k e he => (parseElems_found he).high.trans hsum.le
  have hhead : bssidOff + 6 ≤ n ∧ 32 + 1 < n ∧ 34 + 1 < n := by
    rw [bssidOff]
    omega
  rw [inside_bind, inside_parseElems hlen', hsum]
  simp only [processBeacon, addAp, inside_bind, inside_ite, inside_readAddr, inside_readU16,
    inside_forSome, inside_pure, hhead, implies_true, le_refl, and_true, true_and]
  exact ⟨fun e he => inside_copyCapped (hle _ e he) (by omega),
    fun e he => inside_copyCapped (hle _ e he) (by omega),
    fun e he => inside_copyCapped (hle _ e he) (usedRates_le _),
    fun e he => inside_readSingle (hle _ e he), fun e he => inside_readSingle (hle _ e he)⟩

theorem inside_rxLeave {s : ApInfo cfg} {leave : ApInfo cfg → EtherAddr → ApInfo cfg} :
    Inside n m (rxLeave s n leave) := by
  simp only [rxLeave, inside_ite, inside_bind, inside_readAddr, inside_readU16,
    inside_findStaByAddr, inside_pure, implies_true, and_true, true_and]
  intro hlen
  have h26 : 26 ≤ n := Nat.le_of_not_lt hlen
  rw [saOff]
  omega

theorem inside_sendAuthReply {s : ApInfo cfg} {status : Status} (h : 22 ≤ n) :
    Inside n m (sendAuthReply s status) := by
  simp only [sendAuthReply, inside_bind, inside_readAddr, inside_pure, and_true, saOff, bssidOff]
  omega

/-- The challenge of a frame is compared only if the frame has one. -/
theorem inside_authenticate {st : Station cfg} {env : RxEnv} {authAlg transaction : ℕ}
    {isWep : Bool} {challenge : Option ℕ} (h : ∀ off, challenge = some off → off + 128 ≤ n) :
    Inside n m (authenticate st env authAlg transaction isWep challenge) := by
  simp only [authenticate, authSharedKey, inside_ite, inside_pure, implies_true, true_and]
  intro _ _ _
  split
  · next c off _ =>
    rw [inside_bind]
    exact ⟨inside_memcmp (h off rfl), inside_pure n m _⟩
  · exact inside_pure n m _

theorem inside_admitSta {s : ApInfo cfg} {env : RxEnv} {authAlg transaction : ℕ} {isWep : Bool}
    {challenge : Option ℕ} (h22 : 22 ≤ n) (h : ∀ off, challenge = some off → off + 128 ≤ n) :
    Inside n m (admitSta s env authAlg transaction isWep challenge) := by
  have hsa : saOff + 6 ≤ n := by
    rw [saOff]
    omega
  rw [admitSta, inside_bind, inside_findStaByAddr, inside_bind, inside_readAddr]
  refine ⟨fun _ => hsa, hsa, ?_⟩
  split
  · exact inside_sendAuthReply h22
  · rw [inside_bind]
    exact ⟨inside_authenticate h, inside_sendAuthReply h22⟩

theorem inside_hasChallenge : Inside n m (hasChallenge n) := by
  simp only [hasChallenge, inside_ite, inside_bind, inside_read, inside_pure, implies_true,
    and_true, true_and]
  intro hlen
  have h160 : 160 ≤ n := Nat.le_of_not_lt hlen
  omega

theorem inside_authStatus {env : RxEnv} {authAlg transaction : ℕ} (h : 16 ≤ n) :
    Inside n m (authStatus cfg env authAlg transaction) := by
  simp only [authStatus, inside_ite, inside_bind, inside_pure, implies_true, and_true, true_and]
  exact fun _ _ _ => inside_memcmp h

theorem inside_rxAuth {s : ApInfo cfg} {env : RxEnv} : Inside n m (rxAuth s env n) := by
  rw [rxAuth, inside_ite]
  refine ⟨fun _ => inside_pure n m _, fun hlen => ?_⟩
  have h30 : 30 ≤ n := Nat.le_of_not_lt hlen
  simp only [inside_bind, inside_readU16, inside_ite, inside_hasChallenge, true_and]
  refine ⟨by omega, by omega, by omega, by omega, inside_authStatus (by omega),
    fun _ => inside_sendAuthReply (by omega), fun _ => inside_admitSta (by omega) ?_⟩
  intro off hoff
  split_ifs at hoff with hfound
  obtain rfl : 32 = off := Option.some.inj hoff
  by_contra hlt
  rw [hasChallenge, if_pos (by rw [hdrLen]; omega)] at hfound
  exact absurd hfound (by simp)

/-! ## The dispatcher -/

/-- A big-endian 16-bit field. -/
def getBe16 (m : Mem) (off : ℕ) : ℕ := 256 * (m off).toNat + (m (off + 1)).toNat

@[simp] theorem val_readBe16 (m : Mem) (off : ℕ) : val m (readBe16 off) = getBe16 m off := (rfl)

@[simp] theorem inside_readBe16 {off : ℕ} : Inside n m (readBe16 off) ↔ off + 1 < n := by
  simp only [readBe16, inside_bind, inside_read, inside_pure, and_true]
  omega

/-- What a frame must look like for a handler. -/
def HandlerFits (s : ApInfo cfg) (env : RxEnv) (m : Mem) (n : ℕ) : Handler → Prop
  | .assoc reassoc => assocIes reassoc ≤ n → AssocFits s env m n reassoc
  | .probe =>
    (Ap.findStaByAddr s (addrAt m saOff)).isSome ∨ env.probeAllowed → hdrLen ≤ n
  | _ => True

/-- What a management frame must look like: the frame control is there, the sender if there is
anybody to compare it with, and what the handler needs. -/
def MgmtFits (s : ApInfo cfg) (env : RxEnv) (m : Mem) (n : ℕ) : Prop :=
  2 ≤ n ∧ (fcType (getU16 m 0) = 0 → fcStype (getU16 m 0) < 14 →
    (AnyStation s → saOff + 6 ≤ n) ∧
    HandlerFits s env m n (handlerOf (fcStype (getU16 m 0))))

/-- What an EAPOL frame must look like: the headers are there, and a frame of a station is as long
as it says. -/
def EapolFits (s : ApInfo cfg) (m : Mem) (n : ℕ) : Prop :=
  18 ≤ n ∧ ((Ap.findStaByAddr s (addrAt m 6)).isSome → 18 + getBe16 m 16 ≤ n)

/-- What a frame must look like for its handling to stay inside it. -/
def FrameFits (s : ApInfo cfg) (env : RxEnv) (f : RxFrame) : Prop :=
  if f.f80211 then MgmtFits s env f.data f.len else EapolFits s f.data f.len

theorem inside_callHandler {s : ApInfo cfg} {env : RxEnv} {h : Handler} (hn : n < 65536)
    (hsa : AnyStation s → 16 ≤ n) :
    Inside n m (callHandler s env n h) ↔ HandlerFits s env m n h := by
  cases h with
  | assoc reassoc => exact inside_handleAssoc
  | probe =>
    simp only [callHandler, inside_bind, inside_pure, and_true, HandlerFits,
      inside_rxProbeRequest hn hsa]
  | beacon => simp only [callHandler, inside_bind, inside_pure, inside_rxBeacon, HandlerFits,
      and_true]
  | disassoc => exact iff_of_true inside_rxLeave trivial
  | auth => exact iff_of_true inside_rxAuth trivial
  | deauth => exact iff_of_true inside_rxLeave trivial
  | idle => exact iff_of_true (inside_pure n m _) trivial

/-- Handling a received frame stays inside it, and inside the fields it fills, exactly if the frame
fits. -/
theorem rxHandleApMode_inside_iff (s : ApInfo cfg) (env : RxEnv) (f : RxFrame) :
    (∀ t ∈ touches f.data (rxHandleApMode s env f), t.Inside f.len) ↔ FrameFits s env f := by
  change Inside f.len f.data (rxHandleApMode s env f) ↔ _
  rw [rxHandleApMode, FrameFits, inside_ite]
  cases f.f80211 with
  | true =>
    simp only [true_implies, not_true_eq_false, false_implies, and_true, if_true, inside_bind,
      inside_readU16, val_readU16, inside_ite, inside_findStaByAddr, inside_pure, implies_true]
    rw [MgmtFits, and_imp]
    refine and_congr Iff.rfl (forall_congr' fun _ => forall_congr' fun _ =>
      and_congr_right fun hsa => inside_callHandler f.len_lt hsa)
  | false =>
    simp only [Bool.false_eq_true, false_implies, not_false_eq_true, true_implies, true_and,
      if_false, inside_bind, inside_findStaByAddr, val_findStaByAddr, inside_readBe16,
      val_readBe16, inside_ite, inside_hand, inside_pure, implies_true, and_true]
    rw [EapolFits]
    constructor
    · rintro ⟨-, h18, hlen⟩
      refine ⟨by omega, fun hsta => ?_⟩
      have hhand := hlen hsta
      omega
    · rintro ⟨h18, hlen⟩
      refine ⟨fun _ => by omega, by omega, fun hsta => ?_⟩
      have hlen' := hlen hsta
      omega

/-- Nothing is configured, and nothing has happened before. -/
def plainEnv : RxEnv where
  tkipCountermeasures := false
  conf := ⟨0, 0, 0, 0, 0, true⟩
  newChallenge := none
  probeReqCnt := 0
  probeReqTime := 0
  knownAp := false

/-- The head of an EAPOL key frame whose 95 bytes did not come with it. -/
def headlessKey : RxFrame where
  f80211 := false
  data := fun i => [4, 4, 4, 4, 4, 4, 4, 4, 4, 4, 4, 4, 0x88, 0x8e, 1, 3, 0, 95].getD i 0
  len := 18
  len_lt := by decide

/-- It is handed to `wpa_receive` as 99 bytes, of which four are there. -/
theorem headless_key_is_believed :
    ¬ ∀ (s : ApInfo openAp) (env : RxEnv) (f : RxFrame),
      ∀ t ∈ touches f.data (rxHandleApMode s env f), t.Inside f.len := by
  intro h
  have hinside := h (apStep (initAp openAp) (authEvent openAp (Vector.replicate 6 4))).1 plainEnv
    headlessKey (.hand 14 99) (by decide)
  exact absurd hinside (by decide)

end Fullmac.Ap.Raw
