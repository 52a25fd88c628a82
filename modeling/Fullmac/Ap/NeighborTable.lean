import Fullmac.Ap.Neighbor
import Fullmac.Ap.PowerSave
import Fullmac.Lib.Table

/-!
# The entries of the neighbour table

`neighborListProcessBeacon_cases` says what a beacon does to the table: it rewrites the entry of its
BSSID, takes a free entry, or takes the one that was silent for longest. `apListTimer_list` says
what the timer does.

The address zero and the time stamp zero stand for a free entry. A beacon that brings one of them
makes an entry that is free for one function and in use for the other, and the counter, which each
of them changes by its own reckoning, is wrong from then on. Ticks are compared by the sign of their
difference, so an entry that was silent for half the range of the clock looks young.
-/

namespace Fullmac.Ap

variable {cfg : BssCfg} {n : Neighbors} {b : Beacon} {now : UInt32} {i j : NeighborIdx}

/-! ## A beacon -/

/-- The table with an entry and the counter rewritten. -/
def Neighbors.store (n : Neighbors) (i : NeighborIdx) (ap : NeighborApInfo) (num : ℕ) : Neighbors :=
  { n with list := Function.update n.list i ap, numNeighborAp := num }

@[simp] theorem store_list_self (n : Neighbors) (i : NeighborIdx) (ap : NeighborApInfo) (num : ℕ) :
    (n.store i ap num).list i = ap := by
  simp [Neighbors.store]

theorem store_list_of_ne (h : j ≠ i) (ap : NeighborApInfo) (num : ℕ) :
    (n.store i ap num).list j = n.list j := by
  simp [Neighbors.store, h]

@[simp] theorem noteOverlap_list (cfg : BssCfg) (n : Neighbors) (ap : NeighborApInfo) :
    (noteOverlap cfg n ap).1.list = n.list := rfl

/-- The entry of a new neighbour, before its first beacon is recorded. -/
def newEntry (ap : NeighborApInfo) (addr : EtherAddr) : NeighborApInfo := { ap with addr := addr }

theorem apGetAp_some {list : NeighborIdx → NeighborApInfo} {mac : EtherAddr}
    (h : apGetAp list mac = some i) : (list i).addr = mac := by
  simpa using List.find?_some h

theorem apGetAp_none {list : NeighborIdx → NeighborApInfo} {mac : EtherAddr}
    (h : apGetAp list mac = none) (i : NeighborIdx) : (list i).addr ≠ mac := by
  simpa using List.find?_eq_none.mp h i (List.mem_finRange i)

/-- What a beacon is recorded in. -/
inductive Recorded (cfg : BssCfg) (n : Neighbors) (b : Beacon) (now : UInt32) :
    Neighbors × List Overlap → Prop
  | known (i : NeighborIdx) (haddr : (n.list i).addr = b.bssid) :
    Recorded cfg n b now
      (noteOverlap cfg (n.store i (recordBeacon (n.list i) b now) n.numNeighborAp)
        (recordBeacon (n.list i) b now))
  | replaced (hnew : ∀ i, (n.list i).addr ≠ b.bssid) (hfull : neighborMax < inc8 n.numNeighborAp) :
    Recorded cfg n b now
      (noteOverlap cfg
        (n.store (leastRecent n.list) (recordBeacon (newEntry .zero b.bssid) b now)
          (dec8 (inc8 n.numNeighborAp)))
        (recordBeacon (newEntry .zero b.bssid) b now))
  | taken (hnew : ∀ i, (n.list i).addr ≠ b.bssid) (hroom : inc8 n.numNeighborAp ≤ neighborMax)
      (i : NeighborIdx) (hfree : (n.list i).addr = nullAddr) :
    Recorded cfg n b now
      (noteOverlap cfg
        (n.store i (recordBeacon (newEntry (n.list i) b.bssid) b now) (inc8 n.numNeighborAp))
        (recordBeacon (newEntry (n.list i) b.bssid) b now))
  | noEntry (hnew : ∀ i, (n.list i).addr ≠ b.bssid) (hroom : inc8 n.numNeighborAp ≤ neighborMax)
      (hnone : ∀ i, (n.list i).addr ≠ nullAddr) :
    Recorded cfg n b now ({ n with numNeighborAp := inc8 n.numNeighborAp }, [])

theorem neighborListProcessBeacon_cases (cfg : BssCfg) (n : Neighbors) (b : Beacon) (now : UInt32) :
    Recorded cfg n b now (neighborListProcessBeacon cfg n b now) := by
  rw [neighborListProcessBeacon]
  cases hget : apGetAp n.list b.bssid with
  | some i => exact .known i (apGetAp_some hget)
  | none =>
    have hnew := apGetAp_none hget
    dsimp only
    rw [apApAdd]
    by_cases hfull : neighborMax < inc8 n.numNeighborAp
    · have hreplaced := @Recorded.replaced cfg n b now hnew hfull
      simpa [hfull, apFreeAp, Neighbors.store, newEntry] using hreplaced
    · cases hnull : apGetAp n.list nullAddr with
      | none =>
        have hnone := @Recorded.noEntry cfg n b now hnew (Nat.not_lt.mp hfull)
          (apGetAp_none hnull)
        simpa [hfull, hnull] using hnone
      | some i =>
        have htaken := @Recorded.taken cfg n b now hnew (Nat.not_lt.mp hfull) i
          (apGetAp_some hnull)
        simpa [hfull, hnull, Neighbors.store, newEntry] using htaken

/-! ## Ticks -/

/-- How many ticks ago the last beacon of an entry came, as far as the clock can tell. -/
def NeighborApInfo.age (ap : NeighborApInfo) (now : UInt32) : ℕ := (now - ap.lastBeacon).toNat

theorem BssCfg.expiration_lt (cfg : BssCfg) : cfg.expiration.toNat < 2 ^ 31 := by
  have hle : apTableExpirationTime / cfg.tickRateMs ≤ apTableExpirationTime := Nat.div_le_self _ _
  have htime : apTableExpirationTime < 2 ^ 31 := by decide
  rw [BssCfg.expiration, UInt32.toNat_ofNat', Nat.mod_eq_of_lt (by omega)]
  omega

/-- An entry is dropped when it is older than the expiration time, but not by more than half the
range of the clock. -/
theorem timeBefore_expiration_iff (cfg : BssCfg) (now : UInt32) (ap : NeighborApInfo) :
    timeBefore (ap.lastBeacon + cfg.expiration) now = true ↔
      cfg.expiration.toNat < ap.age now ∧ ap.age now ≤ cfg.expiration.toNat + 2 ^ 31 := by
  have hexp := cfg.expiration_lt
  have hlast := ap.lastBeacon.toNat_lt
  have hnow := now.toNat_lt
  rw [timeBefore, decide_eq_true_iff, NeighborApInfo.age, UInt32.toNat_sub, UInt32.toNat_add,
    UInt32.toNat_sub]
  omega

/-- Of two entries that are not too far apart, the one with the earlier beacon is the older one. -/
theorem timeBefore_iff_age {ap ap' : NeighborApInfo} (h : ap.age now < ap'.age now + 2 ^ 31)
    (h' : ap'.age now < ap.age now + 2 ^ 31) :
    timeBefore ap.lastBeacon ap'.lastBeacon = true ↔ ap'.age now < ap.age now := by
  have hlast := ap.lastBeacon.toNat_lt
  have hlast' := ap'.lastBeacon.toNat_lt
  have hnow := now.toNat_lt
  rw [NeighborApInfo.age, NeighborApInfo.age, UInt32.toNat_sub, UInt32.toNat_sub] at h h'
  rw [timeBefore, decide_eq_true_iff, NeighborApInfo.age, NeighborApInfo.age, UInt32.toNat_sub,
    UInt32.toNat_sub, UInt32.toNat_sub]
  omega

/-- The entry that is replaced is the oldest one, if no two are too far apart. -/
theorem age_le_leastRecent {list : NeighborIdx → NeighborApInfo}
    (h : ∀ i j, (list i).age now < (list j).age now + 2 ^ 31) (j : NeighborIdx) :
    (list j).age now ≤ (list (leastRecent list)).age now := by
  have hstep : ∀ (l : List NeighborIdx) (ap : NeighborIdx),
      (list ap).age now ≤ (list (l.foldl (fun ap i =>
          if timeBefore (list i).lastBeacon (list ap).lastBeacon then i else ap) ap)).age now ∧
        ∀ j ∈ l, (list j).age now ≤ (list (l.foldl (fun ap i =>
          if timeBefore (list i).lastBeacon (list ap).lastBeacon then i else ap) ap)).age now := by
    intro l
    induction l with
    | nil => exact fun ap => ⟨Nat.le_refl _, by simp⟩
    | cons i l ih =>
      intro ap
      rw [List.foldl_cons]
      have hi := timeBefore_iff_age (h i ap) (h ap i)
      split
      case isTrue hbefore =>
        have hlt := hi.mp hbefore
        obtain ⟨hacc, hrest⟩ := ih i
        exact ⟨by omega, List.forall_mem_cons.mpr ⟨hacc, hrest⟩⟩
      case isFalse hbefore =>
        have hle := Nat.not_lt.mp fun hlt => hbefore (hi.mpr hlt)
        obtain ⟨hacc, hrest⟩ := ih ap
        exact ⟨hacc, List.forall_mem_cons.mpr ⟨by omega, hrest⟩⟩
  have hall : ∀ j : NeighborIdx, j = 0 ∨ j ∈ (List.finRange neighborMax).tail := by decide
  obtain ⟨hfirst, hrest⟩ := hstep (List.finRange neighborMax).tail 0
  rcases hall j with rfl | hj
  · exact hfirst
  · exact hrest j hj

/-! ## The timer -/

/-- What the timer takes for too old. -/
def stale (cfg : BssCfg) (now : UInt32) (ap : NeighborApInfo) : Bool :=
  ap.lastBeacon ≠ 0 && timeBefore (ap.lastBeacon + cfg.expiration) now

theorem listTimerStep_n (cfg : BssCfg) (now : UInt32) (w : ListWalk) (i : NeighborIdx) :
    (listTimerStep cfg now w i).n = if stale cfg now (w.n.list i) then apFreeAp w.n i else w.n := by
  rw [listTimerStep]
  by_cases hzero : (w.n.list i).lastBeacon = 0
  · simp [stale, hzero]
  · by_cases hold : timeBefore ((w.n.list i).lastBeacon + cfg.expiration) now = true
    · simp [stale, hzero, hold]
    · have hstale : ¬ stale cfg now (w.n.list i) = true := by simp [stale, hold]
      rw [if_neg hzero, if_neg hold, if_neg hstale]
      split
      · split <;> rfl
      · rfl

theorem not_stale_zero : stale cfg now .zero = false := rfl

theorem foldl_listTimerStep_list (cfg : BssCfg) (now : UInt32) (l : List NeighborIdx)
    (w : ListWalk) (j : NeighborIdx) :
    (l.foldl (listTimerStep cfg now) w).n.list j
      = if j ∈ l ∧ stale cfg now (w.n.list j) = true then .zero else w.n.list j := by
  induction l generalizing w with
  | nil => simp
  | cons i l ih =>
    rw [List.foldl_cons, ih, listTimerStep_n]
    by_cases hi : stale cfg now (w.n.list i) = true
    · rw [if_pos hi, apFreeAp]
      by_cases hj : j = i
      · subst hj
        simp [not_stale_zero, hi]
      · simp [hj]
    · rw [if_neg hi]
      by_cases hj : j = i
      · subst hj
        simp [hi]
      · simp [hj]

/-- The timer frees the entries that are too old and no others. -/
theorem apListTimer_list (n : Neighbors) (j : NeighborIdx) :
    (apListTimer cfg n now).1.list j = if stale cfg now (n.list j) then .zero else n.list j := by
  have hlist := foldl_listTimerStep_list cfg now (List.finRange neighborMax)
    ⟨n, false, false⟩ j
  simpa [apListTimer, List.mem_finRange] using hlist

/-! ## The invariant -/

/-- An entry that `ap_get_ap` does not take for free. -/
def NeighborApInfo.occupied (ap : NeighborApInfo) : Bool := ap.addr ≠ nullAddr

/-- The counter is right, both ways to mark a free entry agree, and no neighbour has two entries. -/
structure TableGood (n : Neighbors) : Prop where
  num : n.numNeighborAp = Table.count NeighborApInfo.occupied n.list
  le : n.numNeighborAp ≤ neighborMax
  stamped : ∀ i, (n.list i).addr = nullAddr ↔ (n.list i).lastBeacon = 0
  distinct : ∀ i j, (n.list i).addr ≠ nullAddr → (n.list i).addr = (n.list j).addr → i = j

theorem tableGood_reset : TableGood resetNeighborApinfo := by
  refine ⟨?_, Nat.zero_le _, fun i => by simp [resetNeighborApinfo, NeighborApInfo.zero], ?_⟩
  · exact (Table.count_eq_zero fun i => by
      simp [resetNeighborApinfo, NeighborApInfo.zero, NeighborApInfo.occupied]).symm
  · intro i j h
    simp [resetNeighborApinfo, NeighborApInfo.zero] at h

/-- Only the table and its counter matter. -/
theorem TableGood.congr {n' : Neighbors} (h : TableGood n) (hlist : n'.list = n.list)
    (hnum : n'.numNeighborAp = n.numNeighborAp) : TableGood n' := by
  obtain ⟨num, le, stamped, distinct⟩ := h
  refine ⟨?_, ?_, ?_, ?_⟩
  · rw [hnum, hlist, num]
  · rw [hnum]
    exact le
  · rw [hlist]
    exact stamped
  · rw [hlist]
    exact distinct

/-- Writing an entry in use with an address that no other entry has. -/
theorem TableGood.store (h : TableGood n) (i : NeighborIdx) {ap : NeighborApInfo} (num : ℕ)
    (haddr : ap.addr ≠ nullAddr) (hstamp : ap.lastBeacon ≠ 0)
    (hother : ∀ j, j ≠ i → (n.list j).addr ≠ ap.addr)
    (hnum : num = n.numNeighborAp + if (n.list i).occupied then 0 else 1) :
    TableGood (n.store i ap num) := by
  have hocc : ap.occupied = true := by simpa [NeighborApInfo.occupied] using haddr
  have hcount : num = Table.count NeighborApInfo.occupied (Function.update n.list i ap) := by
    rw [hnum, h.num]
    by_cases hi : (n.list i).occupied = true
    · rw [if_pos hi, Table.count_update_of_eq (hocc.trans hi.symm), Nat.add_zero]
    · rw [if_neg hi, Table.count_update_succ (by simpa using hi) hocc]
  refine ⟨hcount, ?_, fun j => ?_, fun j k hj hjk => ?_⟩
  · change num ≤ neighborMax
    rw [hcount]
    exact (Table.count_le _ _).trans_eq (Fintype.card_fin _)
  · by_cases hj : j = i
    · subst hj
      simp [Neighbors.store, haddr, hstamp]
    · simpa [Neighbors.store, hj] using h.stamped j
  · by_cases hji : j = i <;> by_cases hki : k = i
    · rw [hji, hki]
    · subst hji
      simp only [Neighbors.store, Function.update_self, Function.update_of_ne hki] at hjk
      exact absurd hjk.symm (hother k hki)
    · subst hki
      simp only [Neighbors.store, Function.update_self, Function.update_of_ne hji] at hjk
      exact absurd hjk (hother j hji)
    · simp only [Neighbors.store, Function.update_of_ne hji, Function.update_of_ne hki] at hj hjk
      exact h.distinct j k hj hjk

/-- Freeing an entry in use. -/
theorem TableGood.apFreeAp (h : TableGood n) (hi : (n.list i).lastBeacon ≠ 0) :
    TableGood (apFreeAp n i) := by
  have hocc : (n.list i).occupied = true := by
    simpa [NeighborApInfo.occupied] using fun h' => hi ((h.stamped i).mp h')
  have hcount := Table.count_update_pred (a := NeighborApInfo.zero) hocc rfl
  rw [← h.num] at hcount
  have hle := h.le
  have hnum : dec8 n.numNeighborAp
      = Table.count NeighborApInfo.occupied (Function.update n.list i .zero) := by
    simp only [dec8, neighborMax] at hle ⊢
    omega
  refine ⟨hnum, ?_, fun j => ?_, fun j k hj hjk => ?_⟩
  · change dec8 n.numNeighborAp ≤ neighborMax
    omega
  · by_cases hj : j = i
    · subst hj
      simp [Ap.apFreeAp, NeighborApInfo.zero]
    · simpa [Ap.apFreeAp, hj] using h.stamped j
  · by_cases hji : j = i
    · subst hji
      simp [Ap.apFreeAp, NeighborApInfo.zero] at hj
    · simp only [Ap.apFreeAp, Function.update_of_ne hji] at hj hjk
      by_cases hki : k = i
      · subst hki
        simp only [Function.update_self] at hjk
        exact absurd hjk hj
      · rw [Function.update_of_ne hki] at hjk
        exact h.distinct j k hj hjk

theorem TableGood.apListTimer (h : TableGood n) : TableGood (apListTimer cfg n now).1 := by
  have hfold : ∀ (l : List NeighborIdx) (w : ListWalk), TableGood w.n →
      TableGood (l.foldl (listTimerStep cfg now) w).n := by
    intro l
    induction l with
    | nil => exact fun w hw => hw
    | cons i l ih =>
      intro w hw
      refine ih _ ?_
      rw [listTimerStep_n]
      split
      case isTrue hstale =>
        refine hw.apFreeAp ?_
        simp only [stale, Bool.and_eq_true, decide_eq_true_eq] at hstale
        exact hstale.1
      case isFalse => exact hw
  have hend := hfold (List.finRange neighborMax) ⟨n, false, false⟩ h
  rw [Ap.apListTimer]
  generalize (List.finRange neighborMax).foldl (listTimerStep cfg now) ⟨n, false, false⟩ = w
    at hend ⊢
  exact hend.congr rfl rfl

/-- A full table has no free entry. -/
theorem TableGood.occupied_of_full (h : TableGood n) (hfull : n.numNeighborAp = neighborMax)
    (i : NeighborIdx) : (n.list i).occupied = true := by
  by_contra hi
  have hlt := Table.count_lt (t := n.list) (p := NeighborApInfo.occupied) (by simpa using hi)
  rw [← h.num, hfull, Fintype.card_fin] at hlt
  exact absurd hlt (Nat.lt_irrefl _)

/-- `ap_ap_add` takes the table for full when it is. -/
theorem TableGood.eq_of_full (h : TableGood n) (hfull : neighborMax < inc8 n.numNeighborAp) :
    n.numNeighborAp = neighborMax := by
  have hle := h.le
  simp only [inc8, neighborMax] at hfull hle ⊢
  omega

theorem TableGood.lt_of_room (h : TableGood n) (hroom : inc8 n.numNeighborAp ≤ neighborMax) :
    n.numNeighborAp < neighborMax := by
  have hle := h.le
  simp only [inc8, neighborMax] at hroom hle ⊢
  omega

/-- A table that is not full has a free entry. -/
theorem TableGood.exists_free (h : TableGood n) (hroom : n.numNeighborAp < neighborMax) :
    ∃ i, (n.list i).addr = nullAddr := by
  by_contra hnone
  have hall : ∀ i, (n.list i).occupied = true := fun i => by
    simpa [NeighborApInfo.occupied] using fun h' => hnone ⟨i, h'⟩
  have hcount : Table.count NeighborApInfo.occupied n.list = neighborMax := by
    simp [Table.count, Table.total, hall]
  rw [h.num, hcount] at hroom
  exact absurd hroom (Nat.lt_irrefl _)

/-- Nothing about an event makes an entry in use look free, and when ticks are compared they are not
too far apart: a beacon has a BSSID and a tick other than zero, and if it takes the place of another
neighbour no two entries are half the range of the clock apart; when the timer fires no entry is
older than that beyond the expiration time. -/
def Unambiguous (cfg : BssCfg) (n : Neighbors) : NeighborIn → Prop
  | .beacon b now =>
    b.bssid ≠ nullAddr ∧ now ≠ 0 ∧
      (n.numNeighborAp = neighborMax → (∀ i, (n.list i).addr ≠ b.bssid) →
        ∀ i j, (n.list i).age now < (n.list j).age now + 2 ^ 31)
  | .listTimer now =>
    ∀ i, (n.list i).addr ≠ nullAddr →
      (n.list i).age now ≤ cfg.expiration.toNat + 2 ^ 31

instance (cfg : BssCfg) (n : Neighbors) : DecidablePred (Unambiguous cfg n)
  | .beacon b now => inferInstanceAs (Decidable (b.bssid ≠ nullAddr ∧ now ≠ 0 ∧
      (n.numNeighborAp = neighborMax → (∀ i, (n.list i).addr ≠ b.bssid) →
        ∀ i j, (n.list i).age now < (n.list j).age now + 2 ^ 31)))
  | .listTimer now => inferInstanceAs (Decidable (∀ i, (n.list i).addr ≠ nullAddr →
      (n.list i).age now ≤ cfg.expiration.toNat + 2 ^ 31))

/-- What a step is for. A beacon gets an entry, that of its BSSID, else a free one, and in a full
table the oldest, and no other entry changes. The timer frees exactly the neighbours that are older
than the expiration time. -/
def StepRight (cfg : BssCfg) (n n' : Neighbors) : NeighborIn → Prop
  | .beacon b now =>
    ∃ i, (n'.list i).addr = b.bssid ∧ (n'.list i).lastBeacon = now ∧
      (∀ j, j ≠ i → n'.list j = n.list j) ∧
      ((∀ j, (n.list j).addr ≠ b.bssid) →
        if n.numNeighborAp = neighborMax then ∀ j, (n.list j).age now ≤ (n.list i).age now
        else (n.list i).addr = nullAddr)
  | .listTimer now =>
    ∀ i, n'.list i
      = if (n.list i).addr ≠ nullAddr ∧ cfg.expiration.toNat < (n.list i).age now then .zero
        else n.list i

theorem tableGood_beacon (h : TableGood n) (hb : b.bssid ≠ nullAddr) (hnow : now ≠ 0) :
    TableGood (neighborListProcessBeacon cfg n b now).1 := by
  have hcases := neighborListProcessBeacon_cases cfg n b now
  have hle := h.le
  generalize neighborListProcessBeacon cfg n b now = r at hcases
  cases hcases with
  | known i haddr =>
    have hocc : (n.list i).occupied = true := by simp [NeighborApInfo.occupied, haddr, hb]
    refine (h.store i n.numNeighborAp (haddr ▸ hb) hnow
      (fun j hj hji => hj ?_) (by simp [hocc])).congr rfl rfl
    have hji' : (n.list j).addr = (n.list i).addr := hji
    exact h.distinct j i (by rw [hji', haddr]; exact hb) hji'
  | replaced hnew hfull =>
    have hnum := h.eq_of_full hfull
    refine (h.store (leastRecent n.list) (dec8 (inc8 n.numNeighborAp)) hb hnow
      (fun j _ => hnew j) ?_).congr rfl rfl
    simp [h.occupied_of_full hnum, hnum, inc8, dec8, neighborMax]
  | taken hnew hroom i hfree =>
    refine (h.store i (inc8 n.numNeighborAp) hb hnow
      (fun j _ => hnew j) ?_).congr rfl rfl
    have hocc : (n.list i).occupied = false := by simp [NeighborApInfo.occupied, hfree]
    simp only [inc8, neighborMax, hocc, Bool.false_eq_true, if_false] at hroom hle ⊢
    omega
  | noEntry hnew hroom hnone =>
    obtain ⟨i, hi⟩ := h.exists_free (h.lt_of_room hroom)
    exact absurd hi (hnone i)

theorem stepRight_beacon (h : TableGood n) (hinp : Unambiguous cfg n (.beacon b now)) :
    StepRight cfg n (neighborListProcessBeacon cfg n b now).1 (.beacon b now) := by
  obtain ⟨-, -, hclose⟩ := hinp
  have hcases := neighborListProcessBeacon_cases cfg n b now
  generalize neighborListProcessBeacon cfg n b now = r at hcases
  cases hcases with
  | known i haddr =>
    refine ⟨i, ?_, ?_, fun j hj => by rw [noteOverlap_list, store_list_of_ne hj],
      fun hnew => absurd haddr (hnew i)⟩
    · rw [noteOverlap_list, store_list_self]
      exact haddr
    · rw [noteOverlap_list, store_list_self]
      rfl
  | replaced hnew hfull =>
    have hnum := h.eq_of_full hfull
    refine ⟨leastRecent n.list, ?_, ?_,
      fun j hj => by rw [noteOverlap_list, store_list_of_ne hj], fun _ => ?_⟩
    · rw [noteOverlap_list, store_list_self]
      rfl
    · rw [noteOverlap_list, store_list_self]
      rfl
    · rw [if_pos hnum]
      exact age_le_leastRecent (hclose hnum hnew)
  | taken hnew hroom i hfree =>
    have hnum : n.numNeighborAp ≠ neighborMax := (h.lt_of_room hroom).ne
    refine ⟨i, ?_, ?_, fun j hj => by rw [noteOverlap_list, store_list_of_ne hj], fun _ => ?_⟩
    · rw [noteOverlap_list, store_list_self]
      rfl
    · rw [noteOverlap_list, store_list_self]
      rfl
    · rw [if_neg hnum]
      exact hfree
  | noEntry hnew hroom hnone =>
    obtain ⟨i, hi⟩ := h.exists_free (h.lt_of_room hroom)
    exact absurd hi (hnone i)

theorem stepRight_listTimer (h : TableGood n) (hinp : Unambiguous cfg n (.listTimer now)) :
    StepRight cfg n (apListTimer cfg n now).1 (.listTimer now) := by
  intro i
  have hage := hinp i
  have hstamped := h.stamped i
  have hold := timeBefore_expiration_iff cfg now (n.list i)
  rw [apListTimer_list]
  refine if_congr ?_ rfl rfl
  simp only [stale, Bool.and_eq_true, decide_eq_true_eq, hold, ne_eq, ← hstamped]
  constructor
  · rintro ⟨hne, hlt, -⟩
    exact ⟨hne, hlt⟩
  · rintro ⟨hne, hlt⟩
    exact ⟨hne, hlt, hage hne⟩

/-- **The neighbour table is in order while nothing in use looks free.** In every run whose beacons
have BSSIDs and ticks other than zero, and in which ticks are only compared when they are less than
half the range of the clock apart, the counter is the number of entries in use in every state, no
neighbour has two entries, every beacon gets an entry, the oldest if the table is full, and the
timer frees exactly what is too old. -/
theorem neighborRun_table (cfg : BssCfg) (is : List NeighborIn)
    (h : Machine.Meets (neighborStep cfg) (Unambiguous cfg) resetNeighborApinfo is) :
    (∀ js, js <+: is → TableGood (neighborRun cfg js).1) ∧
      ∀ js inp, js ++ [inp] <+: is →
        StepRight cfg (neighborRun cfg js).1 (neighborStep cfg (neighborRun cfg js).1 inp).1
          inp := by
  have hgood : ∀ js, js <+: is → TableGood (neighborRun cfg js).1 := by
    rintro js ⟨rest, rfl⟩
    refine Machine.run_induction_of_meets (C := Unambiguous cfg) (P := fun n _ _ => TableGood n)
      tableGood_reset (fun n _ _ inp hinp hn => ?_) js ((Machine.meets_append _ _ _).mp h).1
    cases inp with
    | beacon b now => exact tableGood_beacon hn hinp.1 hinp.2.1
    | listTimer now => exact hn.apListTimer
  refine ⟨hgood, fun js inp hjs => ?_⟩
  have hn := hgood js ((List.prefix_append js [inp]).trans hjs)
  obtain ⟨rest, rfl⟩ := hjs
  have hinp := ((Machine.meets_append _ _ _).mp ((Machine.meets_append _ _ _).mp h).1).2.1
  cases inp with
  | beacon b now => exact stepRight_beacon hn hinp
  | listTimer now => exact stepRight_listTimer hn hinp

/-- An 802.11n network on channel six. -/
def openBss : BssCfg where
  ap := openAp
  nCurrentChannel := 6
  b80211n := true
  secondaryChannel := true
  tickRateMs := 1

/-- A neighbour on that channel that knows the slow rates only. -/
def legacyBeacon (bssid : EtherAddr) : Beacon where
  bssid := bssid
  beaconInt := 100
  capabInfo := 0
  ssid := none
  suppRates := some [0x82, 0x84, 0x8b, 0x96]
  extSuppRates := none
  wpaIe := false
  erpInfo := none
  dsParams := some [6]
  htCapabilities := false

/-- A neighbour comes and is forgotten. -/
def passingBy : List NeighborIn :=
  [.beacon (legacyBeacon (Vector.replicate 6 8)) 1, .listTimer 360002]

/-- Its entry is freed and the count is right. -/
theorem passingBy_table :
    (∀ js, js <+: passingBy → TableGood (neighborRun openBss js).1) ∧
      ∀ js inp, js ++ [inp] <+: passingBy →
        StepRight openBss (neighborRun openBss js).1
          (neighborStep openBss (neighborRun openBss js).1 inp).1 inp :=
  neighborRun_table openBss passingBy (by decide +kernel)

/-- A beacon with BSSID zero is recorded in a free entry without being counted. When the timer frees
the entry the count goes below zero. -/
theorem nullBeacon_miscounts :
    ¬ TableGood (neighborRun openBss [.beacon (legacyBeacon nullAddr) 1, .listTimer 360002]).1 := by
  intro h
  have hle := h.le
  revert hle
  decide +kernel

end Fullmac.Ap
