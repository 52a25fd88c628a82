import Fullmac.Msg.Model
import Mathlib.Data.List.Perm.Subperm

/-!
# No event is lost

`Accounted p xs s` says that the free list, the mailboxes, the hands of the callers and the events
`xs` in the middle of a step share the events of the block, each in one place, and that the counter
is right. Each function moves one event between these places, one lemma a function. Between two
steps `xs` is empty.

Only `AP_RxHandleFrame` drops an event: its loop tests the number of failures apart from the result
of the last allocation, and one that succeeds after exactly ten failures is thrown away.
-/

namespace Fullmac.Msg

variable {p : EvtPool} {s : MsgState} {xs : List ℕ} {a : ℕ}

/-! ## Where the events are -/

/-- The addresses that are in the mailboxes. -/
def MsgState.posted (s : MsgState) : List ℕ := s.mboxes.map Prod.snd

/-- The free list, threaded through `MsgData` from `sg_msgevt_free_list`. -/
def MsgState.Free (s : MsgState) (l : List ℕ) : Prop :=
  Threads (fun a => (s.mem a).msgData) 0 s.freeList l

/-- Each event of the block, and nothing else, is in one place, `xs` being one of the places. -/
structure Accounted (p : EvtPool) (xs : List ℕ) (s : MsgState) (l : List ℕ) : Prop where
  free : s.Free l
  cnt : s.freeCnt = l.length
  once : ∀ a, l.count a + s.posted.count a + s.held.count a + xs.count a
    = if a ∈ p.events then 1 else 0

theorem EvtPool.addr_injective (p : EvtPool) : Function.Injective p.addr := by
  intro i j h
  simp only [addr, sizeofMsgEvent] at h
  omega

theorem EvtPool.nodup_events (p : EvtPool) : p.events.Nodup :=
  List.nodup_range.map p.addr_injective

theorem EvtPool.pos_of_mem {p : EvtPool} (h : a ∈ p.events) : 0 < a := by
  obtain ⟨k, -, rfl⟩ := List.mem_map.mp h
  have := p.base_pos
  simp only [addr]
  omega

theorem EvtPool.count_lt (p : EvtPool) : p.count < 2 ^ 32 := by
  have hpos := p.base_pos
  have hfits := p.fits
  change p.base + sizeofMsgEvent * p.count ≤ 2 ^ 32 at hfits
  simp only [sizeofMsgEvent] at hfits
  omega

namespace Accounted

variable {l : List ℕ}

/-- Something in one of the places is an event of the block and in no other place. -/
theorem mem_events (h : Accounted p xs s l) (ha : a ∈ l ∨ a ∈ s.posted ∨ a ∈ s.held ∨ a ∈ xs) :
    a ∈ p.events := by
  have honce := h.once a
  by_contra hnot
  rw [if_neg hnot] at honce
  rcases ha with ha | ha | ha | ha <;>
  · have := List.count_pos_iff.mpr ha
    omega

/-- What is in the middle of a step is not free. -/
theorem not_mem_free (h : Accounted p (a :: xs) s l) : a ∉ l := by
  intro ha
  have honce := h.once a
  have := List.count_pos_iff.mpr ha
  rw [List.count_cons_self] at honce
  split at honce <;> omega

/-- The counter does not overflow. -/
theorem length_lt (h : Accounted p xs s l) : l.length < 2 ^ 32 := by
  have hsub : l ⊆ p.events := fun a ha => h.mem_events (.inl ha)
  have hlen := (List.subperm_of_subset h.free.nodup hsub).length_le
  have hall : p.events.length = p.count := by simp [EvtPool.events]
  have := p.count_lt
  omega

/-! ## The functions -/

/-- `msg_evt_alloc` takes the first free event, if there is one. -/
theorem alloc (h : Accounted p xs s l) (hne : s.freeList ≠ 0) :
    ∃ l', Accounted p (s.freeList :: xs) (msgEvtAlloc s).2 l' ∧ l = s.freeList :: l' := by
  obtain ⟨l', rfl, hl'⟩ := Threads.exists_cons h.free hne
  have hcnt := h.cnt
  have hlt := h.length_lt
  refine ⟨l', ⟨?_, ?_, fun a => ?_⟩, rfl⟩
  · simpa [msgEvtAlloc, hne, MsgState.Free] using hl'
  · simp only [msgEvtAlloc, if_neg hne, hcnt, List.length_cons] at hlt ⊢
    omega
  · have honce := h.once a
    simp only [List.count_cons] at honce ⊢
    simp only [msgEvtAlloc, if_neg hne, MsgState.posted] at honce ⊢
    omega

/-- Writing an event that is not free. -/
theorem write (h : Accounted p (a :: xs) s l) (ev : MsgEvent) :
    Accounted p (a :: xs) { s with mem := Function.update s.mem a ev } l := by
  refine ⟨Threads.congr (fun b hb => ?_) h.free, h.cnt, h.once⟩
  have hba : b ≠ a := fun hba => h.not_mem_free (hba ▸ hb)
  simp [hba]

/-- `msg_evt_free` puts an event in front of the free list. -/
theorem evtFree (h : Accounted p (a :: xs) s l) :
    Accounted p xs (msgEvtFree s a) (a :: l) := by
  have hmem : a ∈ p.events := h.mem_events (.inr (.inr (.inr List.mem_cons_self)))
  have honce : ∀ b, (a :: l).count b + s.posted.count b + s.held.count b + xs.count b
      = if b ∈ p.events then 1 else 0 := fun b => by
    have := h.once b
    simp only [List.count_cons] at this ⊢
    omega
  have hfree : (msgEvtFree s a).Free (a :: l) := by
    refine Threads.push h.free (p.pos_of_mem hmem).ne' h.not_mem_free ?_ fun b hb => ?_
    · simp [msgEvtFree, setMsgData]
    · have hba : b ≠ a := hb
      simp [msgEvtFree, setMsgData, hba]
  refine ⟨hfree, ?_, honce⟩
  -- the list fits the block, so the counter that counts it does not wrap
  have hlt := length_lt (s := { msgEvtFree s a with freeCnt := (a :: l).length })
    ⟨hfree, rfl, honce⟩
  simp only [msgEvtFree, h.cnt, List.length_cons] at hlt ⊢
  omega

/-- A post that succeeds moves an event to a mailbox. -/
theorem evtPost (h : Accounted p (a :: xs) s l) (msgevq : ℕ) :
    Accounted p xs (msgEvtPost s msgevq a) l := by
  refine ⟨h.free, h.cnt, fun b => ?_⟩
  have := h.once b
  simp only [MsgState.posted, msgEvtPost, List.map_append, List.count_append, List.map_cons,
    List.map_nil, List.count_cons, List.count_nil] at this ⊢
  omega

/-- A caller takes an event. -/
theorem hold (h : Accounted p (a :: xs) s l) :
    Accounted p xs { s with held := a :: s.held } l := by
  refine ⟨h.free, h.cnt, fun b => ?_⟩
  have := h.once b
  simp only [List.count_cons, MsgState.posted] at this ⊢
  omega

/-- A caller gives an event up. -/
theorem release (h : Accounted p xs s l) (ha : a ∈ s.held) :
    Accounted p (a :: xs) { s with held := s.held.erase a } l := by
  refine ⟨h.free, h.cnt, fun b => ?_⟩
  have honce := h.once b
  have hpos := List.count_pos_iff.mpr ha
  simp only [MsgState.posted, List.count_cons, List.count_erase, beq_iff_eq] at honce ⊢
  by_cases hab : a = b
  · subst hab
    simp only [if_true] at *
    omega
  · simp only [if_neg hab] at *
    omega

/-- An event that is in the middle of a step when the step ends is lost for good. -/
theorem not_drop {l' : List ℕ} (h : Accounted p (a :: xs) s l) : ¬ Accounted p xs s l' := by
  intro h'
  have hl : l = l' := Threads.unique h.free h'.free
  subst hl
  have h₁ := h.once a
  have h₂ := h'.once a
  rw [List.count_cons_self] at h₁
  omega

end Accounted

/-- The counter is the length of the free list, which repeats nothing, and each event of the block
is on the free list, in a mailbox or in the hands of a caller, and only in one of these. -/
def Conserved (p : EvtPool) (s : MsgState) : Prop :=
  ∃ l, s.Free l ∧ s.freeCnt = l.length ∧ l.Nodup ∧
    ∀ a, l.count a + s.posted.count a + s.held.count a = if a ∈ p.events then 1 else 0

theorem conserved_iff : Conserved p s ↔ ∃ l, Accounted p [] s l := by
  constructor
  · rintro ⟨l, hfree, hcnt, -, honce⟩
    exact ⟨l, hfree, hcnt, fun a => by simpa using honce a⟩
  · rintro ⟨l, hfree, hcnt, honce⟩
    exact ⟨l, hfree, hcnt, hfree.nodup, fun a => by simpa using honce a⟩

/-! ## The start -/

/-- What the loop of `msg_evt_init` writes. -/
theorem initLoop_msgData (p : EvtPool) (mem : ℕ → MsgEvent) (n k : ℕ) :
    ((List.range n).foldl (fun m idx => setMsgData m (p.addr idx) (p.addr (idx + 1))) mem
        (p.addr k)).msgData
      = if k < n then p.addr (k + 1) else (mem (p.addr k)).msgData := by
  induction n with
  | zero => simp
  | succ n ih =>
    rw [List.range_succ, List.foldl_append, List.foldl_cons, List.foldl_nil, setMsgData]
    by_cases hk : k = n
    · subst hk
      simp
    · have haddr : p.addr k ≠ p.addr n := fun h => hk (p.addr_injective h)
      have hlt : k < n + 1 ↔ k < n := by omega
      simp [haddr, ih, hlt]

theorem accounted_msgEvtInit (p : EvtPool) (mem : ℕ → MsgEvent) :
    Accounted p [] (msgEvtInit p mem) p.events := by
  have hpos : 0 < p.count := by
    simp only [EvtPool.count, msgEvtMin]
    omega
  obtain ⟨n, hn⟩ := Nat.exists_eq_succ_of_ne_zero hpos.ne'
  have hlast : p.count - 1 = n := by omega
  refine ⟨?_, ?_, fun a => ?_⟩
  · have hbase : (msgEvtInit p mem).freeList = p.addr 0 := rfl
    have hall : p.events = (List.range' 0 (n + 1)).map p.addr := by
      rw [EvtPool.events, hn, List.range_eq_range']
    rw [MsgState.Free, hbase, hall]
    refine Threads.map_range' (n := n + 1) (fun k _ => ?_) (fun k hk => ?_) (fun k hk => ?_)
      (by omega)
    · have := p.base_pos
      simp only [EvtPool.addr]
      omega
    · have hne : p.addr k ≠ p.addr n := fun h => by
        have := p.addr_injective h
        omega
      simp only [msgEvtInit, setMsgData, hlast]
      rw [if_neg hne]
      exact (initLoop_msgData p mem n k).trans (if_pos (by omega))
    · have hkn : k = n := by omega
      simp [msgEvtInit, setMsgData, hlast, hkn]
  · simp [msgEvtInit, EvtPool.events]
  · by_cases ha : a ∈ p.events
    · simp [msgEvtInit, MsgState.posted, ha, List.count_eq_one_of_mem p.nodup_events ha]
    · simp [msgEvtInit, MsgState.posted, ha, List.count_eq_zero_of_not_mem ha]

/-! ## The steps -/

/-- Fetching takes one entry out of the mailboxes. -/
theorem count_fetchFrom {msgevq : ℕ} {l l' : List (ℕ × ℕ)}
    (h : fetchFrom msgevq l = some (a, l')) (b : ℕ) :
    (l.map Prod.snd).count b = (l'.map Prod.snd).count b + [a].count b := by
  induction l generalizing l' with
  | nil => simp [fetchFrom] at h
  | cons e l ih =>
    rw [fetchFrom] at h
    split at h
    · obtain ⟨rfl, rfl⟩ : e.2 = a ∧ l = l' := by simpa using h
      simp only [List.map_cons, List.count_cons, List.count_nil]
      omega
    · obtain ⟨r, hr, heq⟩ := Option.map_eq_some_iff.mp h
      obtain ⟨rfl, rfl⟩ : r.1 = a ∧ e :: r.2 = l' := by simpa using heq
      have := ih hr
      simp only [List.map_cons, List.count_cons] at this ⊢
      omega

theorem Conserved.fetch (h : Conserved p s) (msgevq : ℕ) : Conserved p (msgEvtFetch s msgevq) := by
  rw [msgEvtFetch]
  split
  · exact h
  · rename_i r hr
    obtain ⟨l, hfree, hcnt, hnodup, honce⟩ := h
    refine ⟨l, hfree, hcnt, hnodup, fun b => ?_⟩
    have hone := honce b
    have hcount := count_fetchFrom hr b
    simp only [MsgState.posted, List.count_cons, List.count_nil] at hone hcount ⊢
    omega

theorem Conserved.postData1 (h : Conserved p s) (msgevq msgType msgData : ℕ) (posted : Bool) :
    Conserved p (msgEvtPostData1 s msgevq msgType msgData posted) := by
  obtain ⟨l, hl⟩ := conserved_iff.mp h
  rw [msgEvtPostData1]
  by_cases hne : s.freeList = 0
  · have hnull : (msgEvtAlloc s).1 = 0 := by simp [msgEvtAlloc, hne]
    rw [if_pos hnull]
    exact h
  · have hev : (msgEvtAlloc s).1 = s.freeList := by simp [msgEvtAlloc, hne]
    obtain ⟨l', hl', -⟩ := hl.alloc hne
    rw [hev]
    simp only [if_neg hne]
    have hwrite := hl'.write { (msgEvtAlloc s).2.mem s.freeList with
      msgType := msgType, msgData := msgData }
    cases posted with
    | true => exact conserved_iff.mpr ⟨l', hwrite.evtPost msgevq⟩
    | false => exact conserved_iff.mpr ⟨_, hwrite.evtFree⟩

/-- One try of `AP_RxHandleFrame` keeps all events exactly when it does not succeed too late. -/
theorem conserved_rxTry_iff (h : Conserved p s) (c : RxCall) :
    Conserved p (rxTry s c).1 ↔ (10 ≤ c.retry → s.freeList = 0) := by
  obtain ⟨l, hl⟩ := conserved_iff.mp h
  by_cases hne : s.freeList = 0
  · have hnull : msgEvtAlloc s = (0, s) := by simp [msgEvtAlloc, hne]
    refine iff_of_true ?_ fun _ => hne
    rw [rxTry, hnull]
    by_cases hretry : c.retry < 10
    · rw [if_pos ⟨rfl, hretry⟩]
      exact h
    · rw [if_neg fun hc => hretry hc.2, if_pos (Nat.not_lt.mp hretry)]
      exact h
  · have hev : (msgEvtAlloc s).1 = s.freeList := by simp [msgEvtAlloc, hne]
    obtain ⟨l', hl', -⟩ := hl.alloc hne
    rw [rxTry, hev, if_neg fun hc => hne hc.1]
    by_cases hretry : 10 ≤ c.retry
    · rw [if_pos hretry]
      refine iff_of_false (fun hc => ?_) fun hc => hne (hc hretry)
      -- the event that was allocated is in no place any more
      obtain ⟨l'', hl''⟩ := conserved_iff.mp hc
      exact (show Accounted p [s.freeList] { (msgEvtAlloc s).2 with rx := none } l' from
        ⟨hl'.free, hl'.cnt, hl'.once⟩).not_drop hl''
    · rw [if_neg hretry]
      refine iff_of_true ?_ fun hc => absurd hc hretry
      obtain ⟨hfree, hcnt, honce⟩ :=
        (hl'.write ⟨mevtPktBuf, c.frame, 0, 0, 0⟩).evtPost mboxCmdEngine
      exact conserved_iff.mpr ⟨l', hfree, hcnt, honce⟩

/-- How a call of `AP_RxHandleFrame` should end: the frame is in the mailbox with its event, or it
was freed and no event taken. -/
def Ends (s : MsgState) : RxEnd → Prop
  | .queued frame msg => (mboxCmdEngine, msg) ∈ s.mboxes ∧ (s.mem msg).msgData = frame
  | .freed _ msg => msg = 0

theorem ends_rxTry {c : RxCall} (h : 10 ≤ c.retry → s.freeList = 0) :
    ∀ o ∈ (rxTry s c).2, Ends (rxTry s c).1 o := by
  rw [rxTry]
  dsimp only
  split
  · simp
  · split
    case isTrue hretry =>
      intro o ho
      obtain rfl := List.mem_singleton.mp ho
      simp [Ends, msgEvtAlloc, h hretry]
    case isFalse =>
      intro o ho
      obtain rfl := List.mem_singleton.mp ho
      simp [Ends, osMsgSend, msgEvtPost]

/-- No allocation of `AP_RxHandleFrame` succeeds after ten failures. -/
def InTime (s : MsgState) : MsgIn → Prop
  | .rxRetry => ∀ c, s.rx = some c → 10 ≤ c.retry → s.freeList = 0
  | _ => True

theorem conserved_msgStep_iff (h : Conserved p s) (i : MsgIn) :
    Conserved p (msgStep s i).1 ↔ InTime s i := by
  obtain ⟨l, hl⟩ := conserved_iff.mp h
  cases i with
  | alloc =>
    refine iff_of_true ?_ trivial
    by_cases hne : s.freeList = 0
    · simpa [msgStep, msgEvtAlloc, hne] using h
    · have hev : (msgEvtAlloc s).1 = s.freeList := by simp [msgEvtAlloc, hne]
      obtain ⟨l', hl', -⟩ := hl.alloc hne
      simp only [msgStep, hev, if_neg hne]
      exact conserved_iff.mpr ⟨l', hl'.hold⟩
  | write msgev ev =>
    refine iff_of_true ?_ trivial
    simp only [msgStep]
    split
    case isFalse => exact h
    case isTrue hheld =>
      -- while it is written the event is in the middle of the step
      obtain ⟨hfree, hcnt, -⟩ := (hl.release hheld).write ev
      exact conserved_iff.mpr ⟨l, hfree, hcnt, hl.once⟩
  | post msgevq msgev posted =>
    refine iff_of_true ?_ trivial
    simp only [msgStep]
    split
    case isFalse => exact h
    case isTrue hheld => exact conserved_iff.mpr ⟨l, (hl.release hheld.1).evtPost msgevq⟩
  | free msgev =>
    refine iff_of_true ?_ trivial
    simp only [msgStep]
    split
    case isFalse => exact h
    case isTrue hheld => exact conserved_iff.mpr ⟨_, (hl.release hheld).evtFree⟩
  | postData1 msgevq msgType msgData posted =>
    exact iff_of_true (h.postData1 msgevq msgType msgData posted) trivial
  | fetch msgevq => exact iff_of_true (h.fetch msgevq) trivial
  | rxFrame frame =>
    refine iff_of_true ?_ trivial
    simp only [msgStep]
    split
    · exact (conserved_rxTry_iff h ⟨frame, 0⟩).mpr fun hretry => absurd hretry (by simp)
    · exact h
  | rxRetry =>
    simp only [msgStep, InTime]
    cases hrx : s.rx with
    | none => simpa using h
    | some c => simpa using conserved_rxTry_iff h c

theorem ends_msgStep {i : MsgIn} (h : InTime s i) :
    ∀ o ∈ (msgStep s i).2, Ends (msgStep s i).1 o := by
  cases i with
  | rxFrame frame =>
    simp only [msgStep]
    split
    · exact ends_rxTry fun hretry => absurd hretry (by simp)
    · simp
  | rxRetry =>
    simp only [msgStep]
    split
    · simp
    · rename_i c hrx
      exact ends_rxTry (h c hrx)
  | alloc => simp [msgStep]
  | write msgev ev => simp [msgStep]
  | post msgevq msgev posted => simp [msgStep]
  | free msgev => simp [msgStep]
  | postData1 msgevq msgType msgData posted => simp [msgStep]
  | fetch msgevq => simp [msgStep]

/-- **All events are kept exactly when no allocation of `AP_RxHandleFrame` succeeds after its ten
retries.** In every state of a run the counter and the free list agree and each event is in one
place, and each call of `AP_RxHandleFrame` ends with the frame queued or with the frame freed and no
event taken, if and only if no try of such a call that was preceded by ten failures gets an event.
-/
theorem msgRun_conserved_iff (p : EvtPool) (mem : ℕ → MsgEvent) (is : List MsgIn) :
    ((∀ js, js <+: is → Conserved p (msgRun p mem js).1) ∧
        ∀ js i, js ++ [i] <+: is → ∀ o ∈ (msgStep (msgRun p mem js).1 i).2,
          Ends (msgStep (msgRun p mem js).1 i).1 o) ↔
      Machine.Meets msgStep InTime (msgEvtInit p mem) is := by
  have hconserved : (∀ js, js <+: is → Conserved p (msgRun p mem js).1) ↔
      Machine.Meets msgStep InTime (msgEvtInit p mem) is :=
    Machine.forall_prefix_iff_meets (I := fun _ _ => True) (P := fun s _ => Conserved p s) trivial
      (fun _ _ _ _ => trivial) (conserved_iff.mpr ⟨_, accounted_msgEvtInit p mem⟩)
      (fun s _ i _ hs => conserved_msgStep_iff hs i) is
  constructor
  · rintro ⟨h, -⟩
    exact hconserved.mp h
  · intro h
    refine ⟨hconserved.mpr h, fun js i hjs => ends_msgStep ?_⟩
    obtain ⟨rest, rfl⟩ := hjs
    have hlast := ((Machine.meets_append _ _ _).mp ((Machine.meets_append _ _ _).mp h).1).2
    exact hlast.1

/-- The smallest pool. -/
def smallPool : EvtPool where
  maxEvtCnt := 0
  base := 4096
  base_pos := by decide
  fits := by decide

/-- All events are taken, a frame arrives, ten allocations for it fail, and then the event at 4096
is freed. -/
def lateOps : List MsgIn :=
  List.replicate 48 .alloc ++ .rxFrame 7 :: List.replicate 9 .rxRetry ++ [.free 4096, .rxRetry]

/-- The frame is freed, and the event at 4096 is nowhere. -/
theorem msgRun_loses_event :
    ¬ Conserved smallPool (msgRun smallPool (fun _ => ⟨0, 0, 0, 0, 0⟩) lateOps).1 := by
  rintro ⟨l, hfree, -, -, honce⟩
  have hhead : (msgRun smallPool (fun _ => ⟨0, 0, 0, 0, 0⟩) lateOps).1.freeList = 0 := by
    decide +kernel
  have hout : (msgRun smallPool (fun _ => ⟨0, 0, 0, 0, 0⟩) lateOps).1.posted.count 4096
      + (msgRun smallPool (fun _ => ⟨0, 0, 0, 0, 0⟩) lateOps).1.held.count 4096 = 0 := by
    decide +kernel
  have hmem : 4096 ∈ smallPool.events := by decide
  rw [MsgState.Free, hhead] at hfree
  have hlost := honce 4096
  rw [hfree.eq_nil, if_pos hmem, List.count_nil] at hlost
  omega

end Fullmac.Msg
