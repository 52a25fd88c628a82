import Fullmac.Ap.Frame
import Fullmac.Lib.Table
import Mathlib.Algebra.Order.Group.Multiset

/-!
# The accounts of buffered frames

A descriptor in use belongs to a queue, or is in the hands of the code that works on it. `Ledger`
says so, for the descriptors in hand: those of the queues and those in hand are, each once, the ones
in use. The counter `total_ps_buffered` may be ahead of the queues by the frames that are counted
and not queued yet, or no longer; `Ledger` carries that number too.

Each primitive step has a rule that says how it moves the accounts: taking a frame from a queue puts
it in hand, releasing a descriptor takes it from hand, and so on. Every loop of the transmit path is
then a sequence of rules.

A frame that is sent while others are worked on needs a descriptor of its own for a moment. The pool
has ten more than it may buffer, so there is one (`Ledger.exists_free`), and sending it comes to
nothing but giving back the descriptor it was buffered in (`Ledger.apSendBufferedFrame_ps`).
-/

namespace Fullmac.Ap

open Table

variable {cfg : ApCfg}

/-! ## Accounts -/

/-- The descriptors in the queues of a station. -/
def PsEntry.buffered (e : PsEntry cfg) : Multiset (DespIdx cfg) :=
  total (fun _ q => Multiset.ofList q) e.psTxBuf

/-- The descriptors in all queues. -/
def PsView.queued (v : PsView cfg) : Multiset (DespIdx cfg) := total (fun _ e => e.buffered) v.sta

/-- The descriptors in use. -/
def PsView.inUse (v : PsView cfg) : Multiset (DespIdx cfg) :=
  total (fun d b => if b then {d} else 0) v.txDesp

/-- The accounts with the descriptors `H` in hand and `k` frames counted that are in no queue. Only
the queues that `A` allows have frames. -/
structure Ledger (A : StaIdx cfg → Ac → Prop) (H : Multiset (DespIdx cfg)) (k : ℕ)
    (v : PsView cfg) : Prop where
  owned : v.queued + H = v.inUse
  counted : v.totalPsBuffered = v.queued.card + k
  bounded : v.totalPsBuffered ≤ cfg.poolSize
  room : v.inUse.card ≤ cfg.poolSize + 1
  allowed : ∀ i ac, (v.sta i).psTxBuf ac ≠ [] → A i ac
  ok : v.assertFailed = false

variable {A : StaIdx cfg → Ac → Prop} {H : Multiset (DespIdx cfg)} {k : ℕ} {s : ApInfo cfg}

theorem Ledger.mono {A' : StaIdx cfg → Ac → Prop} {v : PsView cfg} (h : Ledger A H k v)
    (hA : ∀ i ac, (v.sta i).psTxBuf ac ≠ [] → A i ac → A' i ac) : Ledger A' H k v :=
  ⟨h.owned, h.counted, h.bounded, h.room, fun i ac hq => hA i ac hq (h.allowed i ac hq), h.ok⟩

/-- What else is recorded of a station does not matter. -/
theorem Ledger.modSta (h : Ledger A H k s.ps) {i : StaIdx cfg} {f : Station cfg → Station cfg}
    (hf : (f (s.sta i)).psTxBuf = (s.sta i).psTxBuf) : Ledger A H k (s.modSta i f).ps := by
  have hbuf : ∀ j, ((s.modSta i f).ps.sta j).psTxBuf = (s.ps.sta j).psTxBuf := by
    rw [ps_modSta]
    exact apply_update_of_eq _ hf
  have hqueued : (s.modSta i f).ps.queued = s.ps.queued :=
    total_congr fun j => congrArg (total fun _ q => Multiset.ofList q) (hbuf j)
  refine ⟨?_, ?_, h.bounded, h.room, fun j ac hq => ?_, h.ok⟩
  · rw [hqueued]
    exact h.owned
  · rw [hqueued]
    exact h.counted
  · rw [hbuf] at hq
    exact h.allowed j ac hq

theorem Ledger.setNumStaPs (h : Ledger A H k s.ps) (n : ℕ) :
    Ledger A H k ({ s with numStaPs := n } : ApInfo cfg).ps :=
  ⟨h.owned, h.counted, h.bounded, h.room, h.allowed, h.ok⟩

/-- Exchanging a queue exchanges its descriptors. -/
theorem setQueue_queued (s : ApInfo cfg) (i : StaIdx cfg) (ac : Ac) (q : List (DespIdx cfg)) :
    (setQueue s i ac q).ps.queued + ((s.sta i).psTxBuf ac : Multiset (DespIdx cfg))
      = s.ps.queued + (q : Multiset (DespIdx cfg)) := by
  have hbuf := total_update (fun _ q => Multiset.ofList q) (s.sta i).psTxBuf ac q
  have hsta := total_update (fun _ e => PsEntry.buffered e) s.ps.sta i
    { s.ps.sta i with psTxBuf := Function.update (s.sta i).psTxBuf ac q }
  have hview : (setQueue s i ac q).ps.queued = total (fun _ e => PsEntry.buffered e)
      (Function.update s.ps.sta i
        { s.ps.sta i with psTxBuf := Function.update (s.sta i).psTxBuf ac q }) := by
    rw [setQueue, ps_modSta]
    rfl
  -- the two exchanges, of the station and of its queue, cancel what stays in its other queues
  change total _ _ + (s.ps.sta i).buffered = s.ps.queued + total _ _ at hsta
  change _ = (s.ps.sta i).buffered + _ at hbuf
  rw [hview]
  refine add_right_cancel (b := (s.ps.sta i).buffered) ?_
  rw [add_right_comm, hsta, add_assoc, hbuf]
  abel

theorem setQueue_psTxBuf (s : ApInfo cfg) (i : StaIdx cfg) (ac : Ac) (q : List (DespIdx cfg))
    (j : StaIdx cfg) (ac' : Ac) :
    ((setQueue s i ac q).sta j).psTxBuf ac'
      = if j = i ∧ ac' = ac then q else (s.sta j).psTxBuf ac' := by
  by_cases hj : j = i
  · subst hj
    by_cases hac : ac' = ac
    · subst hac; simp [setQueue]
    · simp [setQueue, hac]
  · simp [setQueue, ApInfo.modSta, hj]

/-! ## Rules -/

/-- A frame is taken from its queue: it is in hand, and still counted. -/
theorem Ledger.deq (h : Ledger A H k s.ps) {i : StaIdx cfg} {ac : Ac} {d : DespIdx cfg}
    {q : List (DespIdx cfg)} (hq : (s.sta i).psTxBuf ac = d :: q) :
    Ledger A (d ::ₘ H) (k + 1) (setQueue s i ac q).ps := by
  have hqueued : s.ps.queued = d ::ₘ (setQueue s i ac q).ps.queued := by
    have hset := setQueue_queued s i ac q
    rw [hq, ← Multiset.cons_coe, Multiset.add_cons, ← Multiset.cons_add] at hset
    exact (add_right_cancel hset).symm
  refine ⟨?_, ?_, h.bounded, h.room, fun j ac' hne => ?_, h.ok⟩
  · rw [Multiset.add_cons, ← Multiset.cons_add, ← hqueued]
    exact h.owned
  · change s.ps.totalPsBuffered = _
    rw [h.counted, hqueued, Multiset.card_cons]
    omega
  · refine h.allowed j ac' fun he => hne ?_
    change ((setQueue s i ac q).sta j).psTxBuf ac' = []
    rw [setQueue_psTxBuf]
    split
    · next hji =>
      obtain ⟨rfl, rfl⟩ := hji
      exact absurd (hq.symm.trans he) (by simp)
    · exact he

/-- A frame in hand is put into a queue. -/
theorem Ledger.listQQtail {d : DespIdx cfg} (h : Ledger A (d ::ₘ H) (k + 1) s.ps)
    {i : StaIdx cfg} {ac : Ac} (hA : A i ac) : Ledger A H k (listQQtail s i ac d).ps := by
  have hqueued : (Ap.listQQtail s i ac d).ps.queued = d ::ₘ s.ps.queued := by
    have hset := setQueue_queued s i ac ((s.sta i).psTxBuf ac ++ [d])
    rw [← Multiset.coe_add, Multiset.coe_singleton] at hset
    refine add_right_cancel (b := ((s.sta i).psTxBuf ac : Multiset (DespIdx cfg))) ?_
    rw [Ap.listQQtail, hset, ← Multiset.singleton_add]
    abel
  refine ⟨?_, ?_, h.bounded, h.room, fun j ac' hne => ?_, h.ok⟩
  · rw [hqueued, Multiset.cons_add, ← Multiset.add_cons]
    exact h.owned
  · change s.ps.totalPsBuffered = _
    rw [h.counted, hqueued, Multiset.card_cons]
    omega
  · by_cases hji : j = i ∧ ac' = ac
    · rw [hji.1, hji.2]
      exact hA
    · refine h.allowed j ac' ?_
      change ((Ap.listQQtail s i ac d).sta j).psTxBuf ac' ≠ [] at hne
      rwa [Ap.listQQtail, setQueue_psTxBuf, if_neg hji] at hne

theorem Ledger.setTotal {k' m : ℕ} (h : Ledger A H k s.ps) (hm : m = s.ps.queued.card + k')
    (hle : m ≤ cfg.poolSize) :
    Ledger A H k' ({ s with totalPsBuffered := m } : ApInfo cfg).ps :=
  ⟨h.owned, hm, hle, h.room, h.allowed, h.ok⟩

/-- Frames that have left their queues are no longer counted. -/
theorem Ledger.subTotal {n : ℕ} (h : Ledger A H (k + n) s.ps) : Ledger A H k (s.subTotal n).ps := by
  have hcounted : s.totalPsBuffered = s.ps.queued.card + (k + n) := h.counted
  have hbounded : s.totalPsBuffered ≤ cfg.poolSize := h.bounded
  have hpool := cfg.poolSize_lt
  exact h.setTotal (by omega) (by omega)

/-- A frame is counted before it is queued. -/
theorem Ledger.incTotal (h : Ledger A H k s.ps) (hlt : s.totalPsBuffered < cfg.poolSize) :
    Ledger A H (k + 1) s.incTotal.ps := by
  have hcounted : s.totalPsBuffered = s.ps.queued.card + k := h.counted
  have hpool := cfg.poolSize_lt
  exact h.setTotal (by omega) (by omega)

/-- A descriptor is in use when it has a request header. -/
theorem mem_inUse (v : PsView cfg) (d : DespIdx cfg) : d ∈ v.inUse ↔ v.txDesp d = true := by
  rw [PsView.inUse, total, Multiset.mem_sum]
  constructor
  · rintro ⟨e, -, he⟩
    split at he
    · next hb => rw [Multiset.mem_singleton.mp he]; exact hb
    · exact absurd he (Multiset.notMem_zero d)
  · intro hd
    exact ⟨d, Finset.mem_univ d, by simp [hd]⟩

/-- Exchanging the contents of a descriptor. -/
theorem inUse_update (v : PsView cfg) (d : DespIdx cfg) (b : Bool) :
    ({ v with txDesp := Function.update v.txDesp d b } : PsView cfg).inUse
        + (if v.txDesp d then {d} else 0)
      = v.inUse + (if b then {d} else 0) :=
  total_update (fun e c => if c then ({e} : Multiset (DespIdx cfg)) else 0) v.txDesp d b

/-- A descriptor in hand is given back. -/
theorem Ledger.apReleaseTxDesp {d : DespIdx cfg} (h : Ledger A (d ::ₘ H) k s.ps) :
    Ledger A H k (apReleaseTxDesp s d).ps := by
  have hmem : d ∈ s.ps.inUse := by
    rw [← h.owned]
    simp
  have hps : (Ap.apReleaseTxDesp s d).ps
      = { s.ps with txDesp := Function.update s.ps.txDesp d false } := by
    have htx : (fun e => (Function.update s.txDesp d none e).isSome)
        = Function.update (fun e => (s.txDesp e).isSome) d false := by
      funext e
      by_cases he : e = d
      · subst he; simp
      · simp [Function.update_of_ne he]
    simp only [ApInfo.ps, Ap.apReleaseTxDesp, htx]
  have hin : s.ps.inUse = d ::ₘ (Ap.apReleaseTxDesp s d).ps.inUse := by
    have hu := inUse_update s.ps d false
    rw [(mem_inUse s.ps d).mp hmem] at hu
    simp only [if_true, Bool.false_eq_true, if_false, add_zero] at hu
    rw [hps, ← hu, ← Multiset.singleton_add, add_comm]
  refine ⟨?_, h.counted, h.bounded, ?_, h.allowed, h.ok⟩
  · have hown := h.owned
    rw [hin, Multiset.add_cons] at hown
    exact (Multiset.cons_inj_right d).mp hown
  · have hroom := h.room
    rw [hin, Multiset.card_cons] at hroom
    omega

/-- There is a free descriptor, and `ap_get_tx_desp` finds one. -/
theorem Ledger.exists_free (h : Ledger A H k s.ps) :
    ∃ d, apGetTxDesp s = some d ∧ s.txDesp d = none := by
  cases hget : apGetTxDesp s with
  | some d => exact ⟨d, rfl, by simpa using List.find?_some hget⟩
  | none =>
    exfalso
    have hall : ∀ d, s.ps.txDesp d = true := by
      intro d
      have hd := List.find?_eq_none.mp hget d (List.mem_finRange d)
      change (s.txDesp d).isSome = true
      cases htx : s.txDesp d
      · simp [htx] at hd
      · rfl
    have hcard : s.ps.inUse.card = cfg.maxTxDsp := by
      rw [PsView.inUse, total, Multiset.card_sum]
      simp [hall]
    have hroom := h.room
    rw [hcard, ApCfg.maxTxDsp] at hroom
    omega

/-- A frame that is never queued has come and gone. -/
theorem callTxHandlers_neverQueued {d : DespIdx cfg} (hget : apGetTxDesp s = some d)
    (hd : s.txDesp d = none) (f : TxFrame) (bAPFrame pollFlag : Bool) :
    (callTxHandlers neverQueued s f bAPFrame pollFlag).2 = s := by
  have hneed : ∀ (s : ApInfo cfg) d t, dataNeedQueue neverQueued s d t = (.continue, s) := by
    intro s d t
    unfold dataNeedQueue neverQueued
    split_ifs <;> rfl
  have hback : ∀ t, apReleaseTxDesp { s with txDesp := Function.update s.txDesp d t } d = s := by
    intro t
    have hupd : Function.update (Function.update s.txDesp d t) d none = s.txDesp := by
      rw [Function.update_idem, ← hd, Function.update_eq_self]
    simp only [apReleaseTxDesp, hupd]
  unfold callTxHandlers
  rw [hget]
  dsimp only
  split
  · rw [hneed]
    exact hback _
  · exact hback _

/-- It leaves nothing but the memory of its test. -/
theorem Ledger.dataCouldBeSend_neverQueued (h : Ledger A H k s.ps) (f : TxFrame)
    (bAPFrame pollFlag : Bool) : ∃ t : TxTest cfg,
    (dataCouldBeSend neverQueued s f bAPFrame pollFlag).2 = s.logTest t := by
  obtain ⟨d, hget, hd⟩ := h.exists_free
  exact ⟨_, congrArg (fun s' => ApInfo.logTest s' _)
    (callTxHandlers_neverQueued hget hd f bAPFrame pollFlag)⟩

/-- A frame of the access point itself changes nothing. -/
theorem Ledger.sendMgmtFrame_ps (h : Ledger A H k s.ps) (da : EtherAddr) :
    (sendMgmtFrame s da).ps = s.ps := by
  obtain ⟨t, ht⟩ := h.dataCouldBeSend_neverQueued
    { da, isData := false, priority := noQosPriority, psFrame := false } true false
  unfold sendMgmtFrame
  dsimp only
  rw [ht]
  rfl

theorem Ledger.sendNullResponse_ps (h : Ledger A H k s.ps) (i : StaIdx cfg) :
    (sendNullResponse s i).ps = s.ps := by
  obtain ⟨t, ht⟩ := h.dataCouldBeSend_neverQueued
    { da := (s.sta i).addr, isData := true, priority := noQosPriority, psFrame := false } true true
  unfold sendNullResponse
  dsimp only
  rw [ht]
  rfl

/-- Sending a buffered frame comes to releasing its descriptor. -/
theorem Ledger.apSendBufferedFrame_ps (h : Ledger A H k s.ps) (d : DespIdx cfg) :
    (apSendBufferedFrame s d).ps = (Ap.apReleaseTxDesp s d).ps := by
  unfold apSendBufferedFrame
  split
  · next f _ =>
    obtain ⟨t, ht⟩ := h.dataCouldBeSend_neverQueued { f.frame with psFrame := true } false false
    rw [ht]
    rfl
  · rfl

theorem subTotal_queued (s : ApInfo cfg) (n : ℕ) : (s.subTotal n).ps.queued = s.ps.queued :=
  have htotal : ∀ m, ({ s with totalPsBuffered := m } : ApInfo cfg).ps.queued = s.ps.queued :=
    fun _ => rfl
  htotal _

theorem dropDesp_queued (s : ApInfo cfg) (d : DespIdx cfg) :
    (dropDesp s d).ps.queued = s.ps.queued := by
  rw [dropDesp, subTotal_queued]
  rfl

/-- A frame that was taken from a queue is dropped. -/
theorem Ledger.dropDesp {d : DespIdx cfg} (h : Ledger A (d ::ₘ H) (k + 1) s.ps) :
    Ledger A H k (dropDesp s d).ps :=
  h.apReleaseTxDesp.subTotal

/-! ## Loops that drop frames -/

/-- `purge_old_ps_buffers` and one station: it has no frames, or one is dropped. -/
theorem Ledger.purgeOldOne (h : Ledger A H k s.ps) (i : StaIdx cfg) (acs : List Ac) :
    (purgeOldOne i acs s = s ∧ ∀ ac ∈ acs, (s.sta i).psTxBuf ac = []) ∨
    (Ledger A H k (purgeOldOne i acs s).ps ∧
      (purgeOldOne i acs s).ps.totalPsBuffered < s.ps.totalPsBuffered) := by
  induction acs with
  | nil => exact .inl ⟨rfl, by simp⟩
  | cons ac acs ih =>
    rcases listQDeq_cases s i ac with ⟨hq, hd⟩ | ⟨d, q, hq, hd⟩
    · have hstep : Ap.purgeOldOne i (ac :: acs) s = Ap.purgeOldOne i acs s := by
        simp only [Ap.purgeOldOne, hd]
      rw [hstep]
      rcases ih with ⟨hsame, hempty⟩ | hdrop
      · refine .inl ⟨hsame, fun ac' hac => ?_⟩
        rcases List.mem_cons.mp hac with rfl | hac
        · exact hq
        · exact hempty ac' hac
      · exact .inr hdrop
    · have hstep : Ap.purgeOldOne i (ac :: acs) s = Ap.dropDesp (setQueue s i ac q) d := by
        simp only [Ap.purgeOldOne, hd]
      rw [hstep]
      have hdeq := h.deq hq
      refine .inr ⟨hdeq.dropDesp, ?_⟩
      have hcard := hdeq.dropDesp.counted
      have hcard' := hdeq.counted
      have ht : (setQueue s i ac q).ps.totalPsBuffered = s.ps.totalPsBuffered := rfl
      rw [dropDesp_queued] at hcard
      omega

theorem mem_acs : ∀ ac : Ac, ac ∈ [3, 2, 1, 0] := by decide

/-- The stations in turn: nobody has frames, or at least one is dropped. -/
theorem Ledger.purgeOld_foldl (h : Ledger A H k s.ps) (l : List (StaIdx cfg)) :
    let s' := l.foldl
      (fun s i => if (s.sta i).valid then Ap.purgeOldOne i [3, 2, 1, 0] s else s) s
    (s' = s ∧ ∀ i ∈ l, (s.sta i).valid = true → ∀ ac, (s.sta i).psTxBuf ac = []) ∨
    (Ledger A H k s'.ps ∧ s'.ps.totalPsBuffered < s.ps.totalPsBuffered) := by
  induction l generalizing s with
  | nil => exact .inl ⟨rfl, by simp⟩
  | cons j l ih =>
    dsimp only [List.foldl_cons]
    have hskip : ((∀ i ∈ l, (s.sta i).valid = true → ∀ ac, (s.sta i).psTxBuf ac = []) →
        ((s.sta j).valid = true → ∀ ac, (s.sta j).psTxBuf ac = []) →
        ∀ i ∈ j :: l, (s.sta i).valid = true → ∀ ac, (s.sta i).psTxBuf ac = []) := by
      intro hl hj i hi
      rcases List.mem_cons.mp hi with rfl | hi
      · exact hj
      · exact hl i hi
    split
    · next hv =>
      rcases h.purgeOldOne j [3, 2, 1, 0] with ⟨hsame, hempty⟩ | ⟨hdrop, hlt⟩
      · rw [hsame]
        rcases ih h with ⟨hl, hrest⟩ | hl
        · exact .inl ⟨hl, hskip hrest fun _ ac => hempty ac (mem_acs ac)⟩
        · exact .inr hl
      · rcases ih hdrop with ⟨hl, -⟩ | ⟨hl, hlt'⟩
        · rw [hl]
          exact .inr ⟨hdrop, hlt⟩
        · exact .inr ⟨hl, hlt'.trans hlt⟩
    · next hv =>
      rcases ih h with ⟨hl, hrest⟩ | hl
      · exact .inl ⟨hl, hskip hrest fun hv' => absurd hv' hv⟩
      · exact .inr hl

/-- `purge_old_ps_buffers` makes room, if there is anything to purge. -/
theorem Ledger.purgeOldPsBuffers (h : Ledger A H 0 s.ps)
    (hA : ∀ i ac, A i ac → (s.sta i).valid = true) (hpos : 0 < s.totalPsBuffered) :
    Ledger A H 0 (purgeOldPsBuffers s).ps ∧
      (purgeOldPsBuffers s).totalPsBuffered < s.totalPsBuffered := by
  rcases h.purgeOld_foldl (List.finRange cfg.maxAid) with ⟨-, hempty⟩ | hdrop
  · exfalso
    have hall : ∀ i ac, (s.sta i).psTxBuf ac = [] := by
      intro i ac
      by_contra hne
      exact hne (hempty i (List.mem_finRange i) (hA i ac (h.allowed i ac hne)) ac)
    have hzero : s.ps.queued = 0 := by
      refine total_eq_zero fun i => total_eq_zero fun ac => ?_
      change ((s.sta i).psTxBuf ac : Multiset (DespIdx cfg)) = 0
      rw [hall, Multiset.coe_nil]
    have hcounted := h.counted
    rw [hzero, Multiset.card_zero] at hcounted
    change s.totalPsBuffered = 0 at hcounted
    omega
  · exact hdrop

/-- The loop of `purge_sta_ps_buffers` empties the queue. -/
theorem Ledger.purgeAc (i : StaIdx cfg) (ac : Ac) (n : ℕ) (h : Ledger A H k s.ps)
    (hn : ((s.sta i).psTxBuf ac).length = n) :
    Ledger A H k (purgeAc i ac n s).ps ∧ ((Ap.purgeAc i ac n s).sta i).psTxBuf ac = [] := by
  induction n generalizing s with
  | zero => exact ⟨h, List.length_eq_zero_iff.mp hn⟩
  | succ n ih =>
    rcases listQDeq_cases s i ac with ⟨hq, -⟩ | ⟨d, q, hq, hd⟩
    · rw [hq] at hn
      exact absurd hn (by simp)
    · have hstep : Ap.purgeAc i ac (n + 1) s
          = Ap.purgeAc i ac n (Ap.dropDesp (setQueue s i ac q) d) := by
        simp only [Ap.purgeAc, hd]
      rw [hstep]
      refine ih (h.deq hq).dropDesp ?_
      change (((setQueue s i ac q).sta i).psTxBuf ac).length = n
      rw [setQueue_psTxBuf, if_pos ⟨rfl, rfl⟩]
      rw [hq, List.length_cons] at hn
      omega

/-- A loop over the categories, each turn of which forbids one queue of station `i`. -/
theorem foldl_forbid {σ : Type*} {P : (StaIdx cfg → Ac → Prop) → σ → Prop} {f : σ → Ac → σ}
    {i : StaIdx cfg}
    (hf : ∀ A x ac, P A x → P (fun j ac' => A j ac' ∧ ¬(j = i ∧ ac' = ac)) (f x ac))
    (hmono : ∀ {A A' x}, P A x → (∀ j ac, A j ac → A' j ac) → P A' x) (l : List Ac) (x : σ)
    (h : P A x) : P (fun j ac => A j ac ∧ ¬(j = i ∧ ac ∈ l)) (l.foldl f x) := by
  induction l generalizing A x with
  | nil => exact hmono h fun j ac hA => ⟨hA, by simp⟩
  | cons a l ih =>
    refine hmono (ih (f x a) (hf A x a h)) fun j ac hA => ⟨hA.1.1, fun hj => ?_⟩
    rcases List.mem_cons.mp hj.2 with rfl | hac
    · exact hA.1.2 ⟨hj.1, rfl⟩
    · exact hA.2 ⟨hj.1, hac⟩

/-- A queue that is empty is a queue that may be forbidden. -/
theorem Ledger.forbid (h : Ledger A H k s.ps) {i : StaIdx cfg} {ac : Ac}
    (hq : (s.sta i).psTxBuf ac = []) :
    Ledger (fun j ac' => A j ac' ∧ ¬(j = i ∧ ac' = ac)) H k s.ps := by
  refine h.mono fun j ac' hne hA => ⟨hA, ?_⟩
  rintro ⟨rfl, rfl⟩
  exact hne hq

/-- `purge_sta_ps_buffers` leaves the station without frames. -/
theorem Ledger.purgeStaPsBuffers (h : Ledger A H k s.ps) (i : StaIdx cfg) :
    Ledger (fun j ac => A j ac ∧ j ≠ i) H k (purgeStaPsBuffers s i).ps := by
  have hloop := foldl_forbid (P := fun A (s : ApInfo cfg) => Ledger A H k s.ps) (i := i)
    (f := fun s ac => Ap.purgeAc i ac ((s.sta i).psTxBuf ac).length s)
    (fun A s ac hs => (hs.purgeAc i ac _ rfl).1.forbid (hs.purgeAc i ac _ rfl).2)
    (fun hs hA => hs.mono fun j ac _ => hA j ac) [3, 2, 1, 0] s h
  exact hloop.mono fun j ac _ hA => ⟨hA.1, fun hj => hA.2 ⟨hj, mem_acs ac⟩⟩

/-- The loop of `sta_info_cleanup_expire_buffered_ac`. -/
theorem Ledger.expireAc (now : ℕ) (i : StaIdx cfg) (ac : Ac) (n : ℕ) (h : Ledger A H k s.ps) :
    Ledger A H k (expireAc now i ac n s).ps := by
  induction n generalizing s with
  | zero => exact h
  | succ n ih =>
    unfold Ap.expireAc
    split
    · exact h
    · next d q hq =>
      split
      · have hdeq : (listQDeq s i ac).2 = setQueue s i ac q := by simp [listQDeq, hq]
        rw [hdeq]
        exact ih (h.deq hq).dropDesp
      · exact h

/-- A loop of steps that keep the accounts keeps them. -/
theorem Ledger.foldl {α : Type*} {f : ApInfo cfg → α → ApInfo cfg}
    (hf : ∀ (s : ApInfo cfg) a, Ledger A H k s.ps → Ledger A H k (f s a).ps) (l : List α)
    (h : Ledger A H k s.ps) : Ledger A H k (l.foldl f s).ps := by
  induction l generalizing s with
  | nil => exact h
  | cons a l ih => exact ih (hf s a h)

theorem Ledger.staInfoCleanup (h : Ledger A H k s.ps) (now : ℕ) :
    Ledger A H k (staInfoCleanup now s).ps := by
  have hsta : ∀ (s : ApInfo cfg) i, Ledger A H k s.ps →
      Ledger A H k (cleanupExpireBuffered now s i).ps := by
    intro s i hs
    refine Ledger.foldl (fun s ac hs => ?_) _ hs
    rw [recalcTimGenBeacon_ps]
    exact hs.expireAc now i ac _
  refine Ledger.foldl (fun s i hs => ?_) _ h
  split
  · exact hsta s i hs
  · exact hs

/-! ## Loops that send frames -/

theorem Ledger.takeFrames (i : StaIdx cfg) (ac : Ac) (n : ℕ) (h : Ledger A H k s.ps) :
    Ledger A ((takeFrames i ac n s).1 + H) k (takeFrames i ac n s).2.ps := by
  induction n generalizing s H with
  | zero => simpa [Ap.takeFrames] using h
  | succ n ih =>
    rcases listQDeq_cases s i ac with ⟨hq, hd⟩ | ⟨d, q, hq, hd⟩
    · simpa [Ap.takeFrames, hd] using h
    · have hrest := ih (h.deq hq).subTotal
      simp only [Ap.takeFrames, hd]
      rw [← Multiset.cons_coe, Multiset.cons_add, ← Multiset.add_cons]
      exact hrest

theorem Ledger.collectFrames (i : StaIdx cfg) (ignored : ℕ) (acs : List Ac) (n : ℕ)
    (h : Ledger A H k s.ps) :
    Ledger A ((collectFrames i ignored acs n s).1 + H) k
      (collectFrames i ignored acs n s).2.ps := by
  induction acs generalizing n s H with
  | nil => simpa [Ap.collectFrames] using h
  | cons ac acs ih =>
    unfold Ap.collectFrames
    dsimp only
    split_ifs
    · exact ih n h
    · have hrest := ih (n - (Ap.takeFrames i ac n s).1.length) (h.takeFrames i ac n)
      rw [← Multiset.coe_add, add_comm (Multiset.ofList _) (Multiset.ofList _), add_assoc]
      exact hrest
    · exact h.takeFrames i ac n

theorem Ledger.deliverFrame {d : DespIdx cfg} (i : StaIdx cfg) (reason : ReleaseType)
    (h : Ledger A (d ::ₘ H) k s.ps) : Ledger A H k (deliverFrame i reason s d).ps := by
  have hsent : Ledger A H k (apSendBufferedFrame s d).ps := by
    rw [h.apSendBufferedFrame_ps]
    exact h.apReleaseTxDesp
  exact hsent.modSta rfl

/-- The frames that were collected are sent one after another. -/
theorem Ledger.deliverFrames (i : StaIdx cfg) (reason : ReleaseType) (l : List (DespIdx cfg))
    (h : Ledger A (l + H) k s.ps) : Ledger A H k (l.foldl (Ap.deliverFrame i reason) s).ps := by
  induction l generalizing s with
  | nil => simpa using h
  | cons d l ih =>
    refine ih (Ledger.deliverFrame i reason ?_)
    rw [← Multiset.cons_coe, Multiset.cons_add] at h
    exact h

theorem Ledger.staPsDeliverResponse (h : Ledger A 0 k s.ps) (i : StaIdx cfg)
    (nFrames ignored : ℕ) (reason : ReleaseType) :
    Ledger A 0 k (staPsDeliverResponse s i nFrames ignored reason).ps := by
  unfold Ap.staPsDeliverResponse
  extract_lets s₁ r s₂ s₃
  have h₁ : Ledger A 0 k s₁.ps := by
    dsimp only [s₁]
    split
    · exact h.modSta rfl
    · exact h
  have h₂ : Ledger A (r.1 + 0) k s₂.ps := h₁.collectFrames i ignored (List.finRange 4) nFrames
  have h₃ : Ledger A 0 k s₃.ps := by
    dsimp only [s₃]
    split_ifs with hnone
    · rw [h₂.sendNullResponse_ps]
      simpa [hnone] using h₂
    · simpa [hnone] using h₂
    · exact h₂.deliverFrames i reason r.1
  refine Ledger.modSta ?_ rfl
  rwa [recalcTimGenBeacon_ps]

theorem Ledger.staPsDeliverPollResponse (h : Ledger A 0 k s.ps) (i : StaIdx cfg) :
    Ledger A 0 k (staPsDeliverPollResponse s i).ps :=
  h.staPsDeliverResponse i _ _ _

theorem Ledger.staPsDeliverUapsd (h : Ledger A 0 k s.ps) (i : StaIdx cfg) :
    Ledger A 0 k (staPsDeliverUapsd s i).ps := by
  unfold Ap.staPsDeliverUapsd
  dsimp only
  split_ifs
  · exact h
  · exact h.staPsDeliverResponse i _ _ _

/-- One queue of `sta_ps_deliver_wakeup`: the frames that were sent stay counted. -/
theorem Ledger.wakeupAc (i : StaIdx cfg) (ac : Ac) (n : ℕ) {r : ApInfo cfg × ℕ}
    (h : Ledger A H r.2 r.1.ps) (hn : ((r.1.sta i).psTxBuf ac).length = n) :
    Ledger A H (wakeupAc i ac n r).2 (wakeupAc i ac n r).1.ps ∧
      ((Ap.wakeupAc i ac n r).1.sta i).psTxBuf ac = [] := by
  induction n generalizing r with
  | zero => exact ⟨h, List.length_eq_zero_iff.mp hn⟩
  | succ n ih =>
    rcases listQDeq_cases r.1 i ac with ⟨hq, -⟩ | ⟨d, q, hq, hd⟩
    · rw [hq] at hn
      exact absurd hn (by simp)
    · have hdeq := h.deq hq
      have hstep : Ap.wakeupAc i ac (n + 1) r
          = Ap.wakeupAc i ac n (apSendBufferedFrame (setQueue r.1 i ac q) d, r.2 + 1) := by
        simp only [Ap.wakeupAc, hd]
      have hps := hdeq.apSendBufferedFrame_ps d
      have hbuf : ((apSendBufferedFrame (setQueue r.1 i ac q) d).sta i).psTxBuf ac
          = ((setQueue r.1 i ac q).sta i).psTxBuf ac :=
        congrFun (congrArg PsEntry.psTxBuf (congrFun (congrArg PsView.sta hps) i)) ac
      rw [hstep]
      refine ih (r := (_, _)) (by rw [hps]; exact hdeq.apReleaseTxDesp) ?_
      rw [hbuf, setQueue_psTxBuf, if_pos ⟨rfl, rfl⟩]
      rw [hq, List.length_cons] at hn
      omega

/-- `sta_ps_deliver_wakeup` leaves the station without frames. -/
theorem Ledger.staPsDeliverWakeup (h : Ledger A H 0 s.ps) (i : StaIdx cfg) :
    Ledger (fun j ac => A j ac ∧ j ≠ i) H 0 (staPsDeliverWakeup s i).ps := by
  have hloop := foldl_forbid (P := fun A (r : ApInfo cfg × ℕ) => Ledger A H r.2 r.1.ps) (i := i)
    (f := fun r ac => Ap.wakeupAc i ac ((r.1.sta i).psTxBuf ac).length r)
    (fun A r ac hr => (hr.wakeupAc i ac _ rfl).1.forbid (hr.wakeupAc i ac _ rfl).2)
    (fun hr hA => hr.mono fun j ac _ => hA j ac) (List.finRange 4) (s, 0) h
  unfold Ap.staPsDeliverWakeup
  extract_lets r s₁ s₂
  have h₁ : Ledger (fun j ac => A j ac ∧ ¬(j = i ∧ ac ∈ List.finRange 4)) H r.2 s₁.ps :=
    hloop.modSta rfl
  have h₂ : Ledger (fun j ac => A j ac ∧ ¬(j = i ∧ ac ∈ List.finRange 4)) H 0 s₂.ps := by
    rw [← Nat.zero_add r.2] at h₁
    exact h₁.subTotal.modSta rfl
  rw [recalcTimGenBeacon_ps]
  exact h₂.mono fun j ac _ hA => ⟨hA.1, fun hj => hA.2 ⟨hj, List.mem_finRange ac⟩⟩

/-! ## A frame is queued -/

/-- There is room for one more frame, and it is counted. -/
theorem Ledger.makeRoom (h : Ledger A H 0 s.ps) (hA : ∀ i ac, A i ac → (s.sta i).valid = true)
    (i : StaIdx cfg) (ac : Ac) : Ledger A H 1 (makeRoom s i ac).ps := by
  unfold Ap.makeRoom
  extract_lets s₁
  have h₁ : Ledger A H 0 s₁.ps ∧ s₁.totalPsBuffered < cfg.poolSize := by
    have hle : s.totalPsBuffered ≤ cfg.poolSize := h.bounded
    have hpos := cfg.poolSize_pos
    dsimp only [s₁]
    split
    · next hfull =>
      obtain ⟨hpurged, hlt⟩ := h.purgeOldPsBuffers hA (by omega)
      exact ⟨hpurged, by omega⟩
    · next hfull => exact ⟨h, by omega⟩
  split
  · next hlong =>
    rcases listQDeq_cases s₁ i ac with ⟨hq, -⟩ | ⟨d, q, hq, hd⟩
    · rw [hq, List.length_nil, staMaxTxBuffer] at hlong
      omega
    · rw [hd]
      -- the frame that is dropped here stays counted, for the one that takes its place
      exact (h₁.1.deq hq).apReleaseTxDesp
  · exact h₁.1.incTotal h₁.2

/-- Writing into a descriptor that is in use does not show. -/
theorem ps_putDesp {d : DespIdx cfg} (hd : s.ps.txDesp d = true) (t : TxDesp cfg) :
    ({ s with txDesp := Function.update s.txDesp d (some t) } : ApInfo cfg).ps = s.ps := by
  have htx : (fun e => (Function.update s.txDesp d (some t) e).isSome)
      = fun e => (s.txDesp e).isSome := by
    funext e
    by_cases he : e = d
    · subst he
      rw [Function.update_self, Option.isSome_some]
      exact hd.symm
    · rw [Function.update_of_ne he]
  simp only [ApInfo.ps, htx]

/-- The first half of `queueFrame`: room is made and the frame put into its queue. -/
def putFrame (now : ℕ) (s : ApInfo cfg) (i : StaIdx cfg) (ac : Ac) (d : DespIdx cfg)
    (t : TxDesp cfg) : ApInfo cfg :=
  let s := makeRoom s i ac
  let s := { s with txDesp := Function.update s.txDesp d (some { t with jiffies := now }) }
  (listQQtail s i ac d).modSta i fun st =>
    { st with fwQLen := if st.fwQLen = unknownFwQLen then 1 else st.fwQLen + 1 }

theorem queueFrame_eq (now : ℕ) (s : ApInfo cfg) (i : StaIdx cfg) (ac : Ac) (d : DespIdx cfg)
    (t : TxDesp cfg) :
    queueFrame now s i ac d t =
      if cfg.timAllOne then putFrame now s i ac d t
      else if (staInfoRecalcTim (putFrame now s i ac d t) i).1 then
        staPsDeliverPollResponse (staInfoRecalcTim (putFrame now s i ac d t) i).2 i
      else (staInfoRecalcTim (putFrame now s i ac d t) i).2 :=
  rfl

/-- A frame in hand goes into the queue of a station that may have it. -/
theorem Ledger.putFrame {d : DespIdx cfg} (h : Ledger A {d} 0 s.ps)
    (hA : ∀ i ac, A i ac → (s.sta i).valid = true) {i : StaIdx cfg} {ac : Ac} (hi : A i ac)
    (now : ℕ) (t : TxDesp cfg) : Ledger A 0 0 (putFrame now s i ac d t).ps := by
  unfold Ap.putFrame
  extract_lets s₁ s₂
  have h₁ : Ledger A {d} 1 s₁.ps := h.makeRoom hA i ac
  have h₂ : Ledger A (d ::ₘ 0) (0 + 1) s₂.ps := by
    have hd : s₁.ps.txDesp d = true := by
      rw [← mem_inUse, ← h₁.owned]
      simp
    dsimp only [s₂]
    rw [ps_putDesp hd]
    exact h₁
  exact (h₂.listQQtail hi).modSta rfl

theorem Ledger.queueFrame {d : DespIdx cfg} (h : Ledger A {d} 0 s.ps)
    (hA : ∀ i ac, A i ac → (s.sta i).valid = true) {i : StaIdx cfg} {ac : Ac} (hi : A i ac)
    (now : ℕ) (t : TxDesp cfg) : Ledger A 0 0 (queueFrame now s i ac d t).ps := by
  have hput := h.putFrame hA hi now t
  have htim : Ledger A 0 0 (staInfoRecalcTim (Ap.putFrame now s i ac d t) i).2.ps := by
    rwa [staInfoRecalcTim_ps]
  rw [queueFrame_eq]
  split_ifs
  · exact hput
  · exact htim.staPsDeliverPollResponse i
  · exact htim

/-- A new frame gets a descriptor. -/
theorem Ledger.apGetTxDesp (h : Ledger A 0 0 s.ps) {d : DespIdx cfg} (hd : s.txDesp d = none)
    (t : TxDesp cfg) :
    Ledger A {d} 0 ({ s with txDesp := Function.update s.txDesp d (some t) } : ApInfo cfg).ps := by
  have htx : (fun e => (Function.update s.txDesp d (some t) e).isSome)
      = Function.update s.ps.txDesp d true := by
    funext e
    by_cases he : e = d
    · subst he; simp
    · simp [Function.update_of_ne he, ApInfo.ps]
  have hps : ({ s with txDesp := Function.update s.txDesp d (some t) } : ApInfo cfg).ps
      = { s.ps with txDesp := Function.update s.ps.txDesp d true } := by
    simp only [ApInfo.ps, htx]
  have hin := inUse_update s.ps d true
  have hfree : s.ps.txDesp d = false := by simp [ApInfo.ps, hd]
  rw [hfree] at hin
  simp only [if_true, Bool.false_eq_true, if_false, add_zero] at hin
  rw [hps]
  have howned := h.owned
  have hcounted := h.counted
  have hbounded := h.bounded
  refine ⟨?_, h.counted, h.bounded, ?_, h.allowed, h.ok⟩
  · rw [hin, ← howned, add_zero]
    rfl
  · rw [hin, ← howned, add_zero, Multiset.card_add, Multiset.card_singleton]
    omega

/-- The handlers put a frame into a queue, or leave everything as it is. -/
theorem Ledger.dataNeedQueue {d : DespIdx cfg} (h : Ledger A {d} 0 s.ps)
    (hvalid : ∀ i ac, A i ac → (s.sta i).valid = true)
    (hA : ∀ i ac, (s.sta i).psSta = true → A i ac) (now : ℕ) (t : TxDesp cfg) :
    (∃ s', dataNeedQueue (txHUnicastPsBuf now) s d t = (.queued, s') ∧ Ledger A 0 0 s'.ps) ∨
    dataNeedQueue (txHUnicastPsBuf now) s d t = (.continue, s) := by
  unfold Ap.dataNeedQueue
  split_ifs
  · exact .inr rfl
  · unfold txHUnicastPsBuf
    split
    · exact .inr rfl
    · next i hi =>
      dsimp only
      split_ifs with hps
      · refine .inl ⟨_, rfl, h.queueFrame hvalid ?_ now t⟩
        rw [Bool.and_eq_true, Bool.or_eq_true] at hps
        rcases hps.1 with hsta | hq
        · exact hA i _ hsta
        · refine h.allowed i _ fun he => ?_
          change (s.sta i).psTxBuf _ = [] at he
          rw [he] at hq
          exact absurd hq (by simp)
      · exact .inr rfl
  · exact .inr rfl

/-- `ssv6xxx_data_could_be_send`, for any frame. -/
theorem Ledger.dataCouldBeSend (h : Ledger (fun i _ => (s.sta i).psSta = true) 0 0 s.ps)
    (hvalid : ∀ i, (s.sta i).psSta = true → (s.sta i).valid = true) (now : ℕ) (f : TxFrame)
    (bAPFrame pollFlag : Bool) :
    Ledger (fun i _ => (s.sta i).psSta = true) 0 0
      (dataCouldBeSend (txHUnicastPsBuf now) s f bAPFrame pollFlag).2.ps := by
  obtain ⟨d, hget, hd⟩ := h.exists_free
  change Ledger _ 0 0 (callTxHandlers (txHUnicastPsBuf now) s f bAPFrame pollFlag).2.ps
  unfold callTxHandlers
  rw [hget]
  dsimp only
  generalize dataPrepareTxData s f bAPFrame pollFlag = t
  have h₁ := h.apGetTxDesp hd t
  have hneed := h₁.dataNeedQueue (fun i _ => hvalid i) (fun i _ hi => hi) now t
  generalize ({ s with txDesp := Function.update s.txDesp d (some t) } : ApInfo cfg) = s₁
    at h₁ hneed ⊢
  have hback : Ledger (fun i _ => (s.sta i).psSta = true) 0 0 (Ap.apReleaseTxDesp s₁ d).ps :=
    Ledger.apReleaseTxDesp (H := 0) h₁
  split
  · rcases hneed with ⟨s₂, hres, hqueued⟩ | hsame
    · rw [hres]
      exact hqueued
    · rw [hsame]
      exact hback
  · exact hback

end Fullmac.Ap
