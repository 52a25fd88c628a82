import Fullmac.Tx.Accounting

/-!
# Every accepted frame is freed, unless the task has left it behind

The task takes one token of the semaphore for each frame, some of them late: the first frame of a
pass is paid by the token that woke the task, and from the second on a token is taken after the
frame is freed. `HasTokens` says that there are always enough of them, so that a frame in a queue
wakes the task up sooner or later. The mode is another matter. In `MT_EXIT` the task finishes the
pass it is in and leaves, so that a frame in a queue it has already looked at stays there
(`Stranded`). `txRun_accounted_freed_iff` says that this is the only way to lose a frame.
-/

namespace Fullmac.Tx

open Queues

/-! ## Frames left behind -/

/-- The task looks at queue `r` again only in another pass. -/
def TxPc.Passed (pc : TxPc) (r : ℕ) : Prop := pc ≠ .wait ∧ pc.left ≤ r

instance (pc : TxPc) (r : ℕ) : Decidable (pc.Passed r) := inferInstanceAs (Decidable (_ ∧ _))

/-- There is no other pass, and a frame in a queue that would need one. -/
def Stranded (s : TxState) : Prop :=
  s.currMode = .exit ∧ ∃ r < priQNum, s.task.Passed r ∧ s.txHwq r ≠ []

/-- The step leaves no frame behind: `MT_EXIT` is entered when the queues already passed are empty,
and no frame is put into a queue already passed afterwards. -/
def NotStranding (s : TxState) : TxIn → Prop
  | .enqueue frame priority =>
    s.currMode = .exit → (frame, priority) ∈ s.callers → s.freeFrmQ ≠ [] → ¬ s.task.Passed priority
  | .setOpMode mode =>
    s.currMode = .stop → mode = .exit → ∀ r < priQNum, s.task.Passed r → s.txHwq r = []
  | _ => True

theorem not_stranded_txInit (cfg : TxCfg) : ¬ Stranded (txInit cfg) := by
  rintro ⟨hmode, -⟩
  simp [txInit] at hmode

theorem stranded_enqueueFrm_iff (s : TxState) (frame : TxFrame) (priority : Fin priQNum) :
    Stranded (enqueueFrm s frame priority).1
      ↔ Stranded s ∨ (s.currMode = .exit ∧ s.freeFrmQ ≠ [] ∧ s.task.Passed priority) := by
  unfold enqueueFrm
  split
  · rename_i hfree
    simp [hfree]
  rename_i dataFrm rest hfree
  constructor
  · rintro ⟨hmode, r, hr, hpassed, hne⟩
    by_cases hrp : r = priority
    · subst hrp
      exact .inr ⟨hmode, by simp [hfree], hpassed⟩
    · simp only [Function.update_of_ne hrp] at hne
      exact .inl ⟨hmode, r, hr, hpassed, hne⟩
  · rintro (⟨hmode, r, hr, hpassed, hne⟩ | ⟨hmode, -, hpassed⟩)
    · refine ⟨hmode, r, hr, hpassed, ?_⟩
      by_cases hrp : r = priority
      · subst hrp
        simp
      · simpa only [Function.update_of_ne hrp] using hne
    · exact ⟨hmode, priority, priority.isLt, hpassed, by simp⟩

theorem stranded_setOpMode_iff (s : TxState) (mode : ModeType) :
    Stranded (setOpMode s mode) ↔ Stranded s ∨ ¬ NotStranding s (.setOpMode mode) := by
  unfold setOpMode
  split
  · rename_i hmode
    simp only [Stranded, NotStranding, hmode, reduceCtorEq, false_and, false_or, forall_const]
    push Not
    rfl
  · rename_i hmode
    split <;> simp_all [Stranded, NotStranding]
  · rename_i hmode
    simp [NotStranding, hmode]

/-- The task itself neither strands a frame nor saves one. -/
theorem stranded_taskStep_iff {s s' : TxState} {out : List TxOut} {timeout : Bool}
    (hstep : TaskStep s timeout s' out) : Stranded s' ↔ Stranded s := by
  -- most steps change neither the queues nor the set of queues already passed
  have hsame : ∀ {t : TxState}, t.currMode = s.currMode → t.txHwq = s.txHwq →
      (∀ r < priQNum, t.task.Passed r ↔ s.task.Passed r) → (Stranded t ↔ Stranded s) := by
    intro t hmode hq hpassed
    simp only [Stranded, hmode, hq]
    refine and_congr_right fun _ => exists_congr fun r => and_congr_right fun hr => ?_
    rw [hpassed r hr]
  have hwait : ∀ {next : TxPc}, (∀ r < priQNum, next.Passed r ↔ s.task.Passed r) →
      (Stranded (semWait s timeout next) ↔ Stranded s) := by
    intro next hpassed
    unfold semWait
    split
    · exact hsame rfl rfl hpassed
    split
    · exact hsame rfl rfl hpassed
    · rfl
  cases hstep with
  | leave htask _ | endPass htask | skip htask _ | count htask _ | free htask =>
    refine hsame rfl rfl fun r _ => ?_
    rw [htask]
    simp [TxPc.Passed, TxPc.left, countFrm]
  | enter htask hmode =>
    constructor
    · rintro ⟨hexit, -⟩
      exact absurd hexit hmode
    · rintro ⟨hexit, -⟩
      exact absurd hexit hmode
  | waited htask =>
    refine hwait fun r hr => ?_
    rw [htask]
    simp [TxPc.Passed, TxPc.left, hr]
  | next htask hq =>
    -- the queue just passed is empty
    rename_i r
    constructor
    · rintro ⟨hmode, r', hr', hpassed, hne⟩
      have hrr : r' ≠ r := by
        rintro rfl
        exact hne hq
      refine ⟨hmode, r', hr', ?_, hne⟩
      simp only [TxPc.Passed, TxPc.left, htask] at hpassed ⊢
      exact ⟨by simp, by omega⟩
    · rintro ⟨hmode, r', hr', hpassed, hne⟩
      refine ⟨hmode, r', hr', ?_, hne⟩
      simp only [TxPc.Passed, TxPc.left, htask] at hpassed ⊢
      exact ⟨by simp, by omega⟩
  | pop htask hq =>
    -- a frame is taken from a queue not yet passed
    rename_i r outFrm rest
    have hiff : ∀ r', (TxPc.popped (r + 1) outFrm).Passed r' ∧
        Function.update s.txHwq r rest r' ≠ [] ↔ s.task.Passed r' ∧ s.txHwq r' ≠ [] := by
      intro r'
      have hpassed : (TxPc.popped (r + 1) outFrm).Passed r' ↔ s.task.Passed r' := by
        rw [htask]
        simp [TxPc.Passed, TxPc.left]
      rw [hpassed]
      refine and_congr_right fun hp => ?_
      have hrr : r' ≠ r := by
        rw [htask] at hp
        have := hp.2
        simp only [TxPc.left] at this
        omega
      rw [Function.update_of_ne hrr]
    refine and_congr_right fun _ => exists_congr fun r' => and_congr_right fun _ => hiff r'
  | giveBack htask =>
    refine hsame rfl rfl fun r _ => ?_
    rw [htask]
    split <;> simp [TxPc.Passed, TxPc.left]
  | waitedMore htask =>
    refine hwait fun r _ => ?_
    rw [htask]
    simp [TxPc.Passed, TxPc.left]
  | idle _ => rfl

/-- A frame is left behind exactly when it was before, or when this step leaves one behind. -/
theorem stranded_txStep_iff (cfg : TxCfg) (s : TxState) (inp : TxIn) :
    Stranded (txStep cfg s inp).1 ↔ Stranded s ∨ ¬ NotStranding s inp := by
  cases inp with
  | call frame priority =>
    rw [txStep]
    split <;> simp [NotStranding, Stranded]
  | enqueue frame priority =>
    rw [txStep]
    split
    · rename_i hmem
      simp only [NotStranding, hmem, stranded_enqueueFrm_iff]
      refine or_congr Iff.rfl ?_
      push Not
      tauto
    · rename_i hmem
      simp [NotStranding, hmem]
  | signal =>
    simp only [txStep, signalFrm, NotStranding, not_true_eq_false, or_false]
    split <;> rfl
  | setOpMode mode => exact stranded_setOpMode_iff s mode
  | task timeout =>
    simp only [NotStranding, not_true_eq_false, or_false]
    exact stranded_taskStep_iff (taskStep_txTask s timeout)

/-! ## Enough tokens -/

/-- The tokens the task can still take: those of the semaphore and those on their way to it. -/
def TxState.tokens (s : TxState) : ℕ := s.sema + s.signals

/-- There is a token for every queued frame. In a pass that has not yet processed a frame one may be
missing, the one that woke the task up, as long as the pass still comes to a frame; after a frame
that will be paid late there is one more. -/
def HasTokens (s : TxState) : Prop :=
  match s.task with
  | .test | .done => s.queuedNum ≤ s.tokens
  | .wait => s.prcCount = 0 ∧ s.queuedNum ≤ s.tokens
  | .scan left =>
    s.queuedNum ≤ s.tokens ∨
      s.prcCount = 0 ∧ s.queuedNum ≤ s.tokens + 1 ∧ ∃ r < left, s.txHwq r ≠ []
  | .popped _ _ | .counted _ _ _ _ => s.queuedNum + (if s.prcCount = 0 then 0 else 1) ≤ s.tokens
  | .returning _ _ => s.queuedNum + (if manyProcessed s.prcCount then 1 else 0) ≤ s.tokens
  | .waitMore _ => s.queuedNum + 1 ≤ s.tokens

/-- What keeps the task going. -/
structure Served (cfg : TxCfg) (s : TxState) : Prop where
  books : ∃ tr, Accounted cfg s tr
  tokens : HasTokens s
  left : s.task = .done → s.currMode = .exit

theorem hasTokens_enqueueFrm {s : TxState} (h : HasTokens s) (frame : TxFrame)
    (priority : Fin priQNum) : HasTokens (enqueueFrm s frame priority).1 := by
  unfold enqueueFrm
  split
  · exact h
  rename_i dataFrm rest hfree
  have hnum := total_length_push priority.isLt s.txHwq ⟨dataFrm.node, some frame⟩
  simp only [HasTokens, TxState.queuedNum, TxState.tokens] at h ⊢
  rw [hnum]
  cases htask : s.task with
  | scan left =>
    rw [htask] at h
    simp only at h ⊢
    rcases h with h | ⟨hprc, hnum, r, hr, hne⟩
    · exact .inl (by omega)
    · refine .inr ⟨hprc, by omega, r, hr, ?_⟩
      by_cases hrp : r = priority
      · subst hrp
        simp
      · rwa [Function.update_of_ne hrp]
  | test | wait | done | popped | counted | returning | waitMore =>
    rw [htask] at h
    simp only at h ⊢
    omega

theorem hasTokens_signalFrm {cfg : TxCfg} {s : TxState} (h : HasTokens s) :
    HasTokens (signalFrm cfg s) := by
  unfold signalFrm
  split
  · rename_i hsignal
    have hsum : s.sema + 1 + (s.signals - 1) = s.sema + s.signals := by omega
    simp only [HasTokens, TxState.queuedNum, TxState.tokens] at h ⊢
    rw [hsum]
    exact h
  · exact h

/-- Taking a token, or giving up. -/
theorem hasTokens_semWait {s : TxState} (h : HasTokens s) {timeout : Bool} {next : TxPc}
    (hnext : ∀ n ≤ s.sema, s.sema ≤ n + 1 → HasTokens { s with sema := n, task := next }) :
    HasTokens (semWait s timeout next) := by
  unfold semWait
  split
  · exact hnext (s.sema - 1) (by omega) (by omega)
  split
  · exact hnext s.sema le_rfl (by omega)
  · exact h

theorem hasTokens_taskStep {s s' : TxState} {out : List TxOut} {timeout : Bool}
    (hleft : s.task.left ≤ priQNum) (hheld : ∀ left e, s.task = .popped left e → e.frame.isSome)
    (h : HasTokens s) (hstep : TaskStep s timeout s' out) : HasTokens s' := by
  have hold := h
  simp only [HasTokens] at hold
  cases hstep with
  | leave htask _ =>
    rw [htask] at hold
    exact hold
  | enter htask _ =>
    rw [htask] at hold
    exact ⟨rfl, hold⟩
  | waited htask =>
    rw [htask] at hold
    obtain ⟨hprc, hold⟩ := hold
    rw [TxState.tokens] at hold
    refine hasTokens_semWait h fun n hn hn' => ?_
    by_cases hnum : s.queuedNum ≤ n + s.signals
    · exact .inl hnum
    · -- the token taken was needed, so there is a frame, and every queue is still to be looked at
      have hpos : ¬ ∀ r < priQNum, s.txHwq r = [] := by
        rw [← total_length_eq_zero, ← TxState.queuedNum]
        omega
      push Not at hpos
      have hone : s.queuedNum ≤ n + s.signals + 1 := by omega
      exact .inr ⟨hprc, hone, hpos⟩
  | endPass htask =>
    rw [htask] at hold
    rcases hold with hold | ⟨-, -, r, hr, -⟩
    · exact hold
    · omega
  | next htask hq =>
    rename_i r
    rw [htask] at hold
    rcases hold with hold | ⟨hprc, hnum, r', hr', hne⟩
    · exact .inl hold
    · have hrr : r' ≠ r := by
        rintro rfl
        exact hne hq
      exact .inr ⟨hprc, hnum, r', by omega, hne⟩
  | pop htask hq =>
    rename_i r outFrm rest
    rw [htask] at hold hleft
    have hnum := total_length_pop hleft hq
    rw [← TxState.queuedNum] at hnum
    show total priQNum List.length (Function.update s.txHwq r rest)
      + (if s.prcCount = 0 then 0 else 1) ≤ s.tokens
    rcases hold with hold | ⟨hprc, hone, -⟩
    · split <;> omega
    · rw [if_pos hprc]
      omega
  | skip htask hframe =>
    have hsome := hheld _ _ htask
    rw [hframe] at hsome
    cases hsome
  | count htask _ =>
    rw [htask] at hold
    exact hold
  | free htask =>
    -- the first frame of a pass leaves the counter at one: nothing is owed for it
    rw [htask] at hold
    show s.queuedNum + (if manyProcessed ((s.prcCount + 1) % 256) then 1 else 0) ≤ s.tokens
    simp only at hold
    by_cases hprc : s.prcCount = 0
    · simpa [hprc, manyProcessed] using hold
    · rw [if_neg hprc] at hold
      split <;> omega
  | giveBack htask =>
    rw [htask] at hold
    simp only at hold
    by_cases hmany : manyProcessed s.prcCount
    · simp only [hmany, if_true] at hold
      simp only [HasTokens, hmany, if_true]
      exact hold
    · simp only [hmany] at hold
      simp only [HasTokens, hmany]
      exact .inl hold
  | waitedMore htask =>
    rw [htask] at hold
    refine hasTokens_semWait h fun n hn hn' => .inl ?_
    show s.queuedNum ≤ n + s.signals
    simp only [TxState.tokens] at hold
    omega
  | idle _ => exact h

/-- The task leaves its loop in `MT_EXIT` only. -/
theorem exit_of_done_taskStep {s s' : TxState} {out : List TxOut} {timeout : Bool}
    (h : s.task = .done → s.currMode = .exit) (hstep : TaskStep s timeout s' out)
    (hdone : s'.task = .done) : s'.currMode = .exit := by
  have hwait : ∀ {next : TxPc}, next ≠ .done → s.task ≠ .done →
      (semWait s timeout next).task ≠ .done := by
    intro next hnext htask
    unfold semWait
    split
    · exact hnext
    split
    · exact hnext
    · exact htask
  cases hstep with
  | leave _ hmode => exact hmode
  | enter | endPass | next | pop | skip | count | free => cases hdone
  | waited htask => exact absurd hdone (hwait (by simp) (by simp [htask]))
  | waitedMore htask => exact absurd hdone (hwait (by simp) (by simp [htask]))
  | giveBack _ => split at hdone <;> cases hdone
  | idle _ => exact h hdone

/-- A caller does not change what the task holds, and does not leave `MT_EXIT`. -/
theorem exit_of_done_txStep {cfg : TxCfg} {s : TxState} (h : s.task = .done → s.currMode = .exit)
    (inp : TxIn) (hdone : (txStep cfg s inp).1.task = .done) :
    (txStep cfg s inp).1.currMode = .exit := by
  cases inp with
  | call frame priority =>
    by_cases hrefuse : refusesFrame s frame
    · simp only [txStep, hrefuse, if_true] at hdone ⊢
      exact h hdone
    · simp only [txStep, hrefuse] at hdone ⊢
      exact h hdone
  | enqueue frame priority =>
    by_cases hmem : (frame, priority) ∈ s.callers
    · simp only [txStep, hmem, if_true, enqueueFrm_task, enqueueFrm_currMode] at hdone ⊢
      exact h hdone
    · simp only [txStep, hmem, if_false] at hdone ⊢
      exact h hdone
  | signal =>
    simp only [txStep, signalFrm_task, signalFrm_currMode] at hdone ⊢
    exact h hdone
  | setOpMode mode =>
    simp only [txStep, setOpMode_task] at hdone ⊢
    rw [setOpMode_of_exit (h hdone)]
    exact h hdone
  | task timeout => exact exit_of_done_taskStep h (taskStep_txTask s timeout) hdone

theorem Served.step {cfg : TxCfg} {s : TxState} (h : Served cfg s) (inp : TxIn) :
    Served cfg (txStep cfg s inp).1 := by
  obtain ⟨tr, hbooks⟩ := h.books
  refine ⟨⟨_, hbooks.step inp⟩, ?_, ?_⟩
  · cases inp with
    | call frame priority =>
      rw [txStep]
      split <;> exact h.tokens
    | enqueue frame priority =>
      rw [txStep]
      split
      · have hcaller : HasTokens { s with callers := s.callers.erase (frame, priority) } := h.tokens
        exact hasTokens_enqueueFrm hcaller frame priority
      · exact h.tokens
    | signal => exact hasTokens_signalFrm h.tokens
    | setOpMode mode =>
      rw [txStep, setOpMode]
      split
      · exact h.tokens
      · split <;> exact h.tokens
      · exact h.tokens
    | task timeout =>
      exact hasTokens_taskStep hbooks.left hbooks.held h.tokens (taskStep_txTask s timeout)
  · exact exit_of_done_txStep h.left inp

theorem served_txInit (cfg : TxCfg) : Served cfg (txInit cfg) where
  books := ⟨[], accounted_txInit cfg⟩
  tokens := by
    have hzero : (txInit cfg).queuedNum = 0 := total_eq_zero rfl fun _ _ => rfl
    show (txInit cfg).queuedNum ≤ _
    rw [hzero]
    exact Nat.zero_le _
  left := by simp [txInit]

/-! ## The task at work -/

/-- Nothing is queued and the task holds no frame. -/
def Drained (s : TxState) : Prop := s.queued + s.task.frames = 0

/-- `n` times: a caller signals if one has to, and the task goes on. -/
def rounds : ℕ → List TxIn
  | 0 => []
  | n + 1 => .signal :: .task false :: rounds n

/-- How far the task is from taking the next frame: first the rest of the frame at hand, then the
pass that comes to no frame any more, then the pass that does. -/
def TxState.phase (s : TxState) : ℕ :=
  match s.task with
  | .popped _ _ => 40
  | .counted _ _ _ _ => 39
  | .returning _ _ => 38
  | .waitMore _ => 37
  | .scan left => if ∃ r < left, s.txHwq r ≠ [] then left else 20 + left
  | .test => 19
  | .wait => 18
  | .done => 0

/-- The work left. -/
def TxState.rank (s : TxState) : ℕ := 41 * s.queuedNum + s.phase

/-- Going back to the scan after a frame. -/
theorem rank_scan_lt {s s' : TxState} {left : ℕ} (htask : s'.task = .scan left)
    (hleft : left ≤ priQNum) (hq : s'.txHwq = s.txHwq) (hphase : 37 ≤ s.phase) :
    s'.rank < s.rank := by
  have hle : s'.phase ≤ 20 + left := by
    simp only [TxState.phase, htask]
    split <;> omega
  simp only [TxState.rank, TxState.queuedNum, hq]
  rw [priQNum] at hleft
  omega

/-- Each queued entry carries a frame. -/
theorem card_queued {s : TxState} (hframed : ∀ r, ∀ e ∈ s.txHwq r, e.frame.isSome) :
    Multiset.card s.queued = s.queuedNum := by
  have hlength : ∀ l : List FrmL, (∀ e ∈ l, e.frame.isSome) →
      Multiset.card (framesOf l) = l.length := by
    intro l hl
    induction l with
    | nil => rfl
    | cons e l ih =>
      obtain ⟨f, hf⟩ := Option.isSome_iff_exists.mp (hl e (by simp))
      have := ih fun e' he' => hl e' (by simp [he'])
      simp [framesOf_cons, hf, this]
  simp only [TxState.queued, TxState.queuedNum, total, Multiset.card_sum]
  exact Finset.sum_congr rfl fun r _ => hlength _ (hframed r)

theorem exists_of_queuedNum_ne_zero {s : TxState} (h : s.queuedNum ≠ 0) :
    ∃ r < priQNum, s.txHwq r ≠ [] := by
  rw [TxState.queuedNum, ne_eq, total_length_eq_zero] at h
  push Not at h
  exact h

/-- A task that holds no frame has one to fetch, or is done with its work. -/
theorem queuedNum_ne_zero_of_not_drained {s : TxState}
    (hframed : ∀ r, ∀ e ∈ s.txHwq r, e.frame.isSome) (hdrained : ¬ Drained s)
    (hframes : s.task.frames = 0) : s.queuedNum ≠ 0 := by
  intro hzero
  rw [← card_queued hframed, Multiset.card_eq_zero] at hzero
  exact hdrained (by rw [Drained, hzero, hframes, add_zero])

/-- With a token at hand when there is one, a step of the task brings it nearer to its end. -/
theorem rank_taskStep_lt {cfg : TxCfg} {s s' : TxState} {out : List TxOut} (h : Served cfg s)
    (hsema : 0 < s.tokens → 0 < s.sema) (hstranded : ¬ Stranded s) (hdrained : ¬ Drained s)
    (hstep : TaskStep s false s' out) : s'.rank < s.rank := by
  obtain ⟨tr, hbooks⟩ := h.books
  have hleft := hbooks.left
  have htokens := h.tokens
  simp only [HasTokens] at htokens
  have hfetch := queuedNum_ne_zero_of_not_drained hbooks.framed hdrained
  cases hstep with
  | leave htask hmode =>
    obtain ⟨r, hr, hne⟩ := exists_of_queuedNum_ne_zero (hfetch (by rw [htask]; rfl))
    exact absurd ⟨hmode, r, hr, by simp [htask, TxPc.Passed, TxPc.left], hne⟩ hstranded
  | enter htask _ =>
    show 41 * s.queuedNum + 18 < 41 * s.queuedNum + s.phase
    simp [TxState.phase, htask]
  | waited htask =>
    -- a queued frame has its token, and comes up in the new pass
    have hpos := hfetch (by rw [htask]; rfl)
    rw [htask] at htokens
    have hwake : 0 < s.sema := hsema (by omega)
    have hphase : s.phase = 18 := by simp [TxState.phase, htask]
    have hex := exists_of_queuedNum_ne_zero hpos
    rw [semWait, if_pos hwake, TxState.rank, TxState.rank, hphase]
    show 41 * s.queuedNum + (if ∃ r < priQNum, s.txHwq r ≠ [] then priQNum else 20 + priQNum)
      < 41 * s.queuedNum + 18
    rw [if_pos hex, priQNum]
    omega
  | endPass htask =>
    show 41 * s.queuedNum + 19 < 41 * s.queuedNum + s.phase
    simp [TxState.phase, htask]
  | next htask hq =>
    rename_i r
    have hiff : (∃ r' < r + 1, s.txHwq r' ≠ []) ↔ ∃ r' < r, s.txHwq r' ≠ [] := by
      constructor
      · rintro ⟨r', hr', hne⟩
        have hrr : r' ≠ r := by
          rintro rfl
          exact hne hq
        exact ⟨r', by omega, hne⟩
      · rintro ⟨r', hr', hne⟩
        exact ⟨r', by omega, hne⟩
    have hphase : s.phase = if ∃ r' < r, s.txHwq r' ≠ [] then r + 1 else 20 + (r + 1) := by
      simp only [TxState.phase, htask, hiff]
    rw [TxState.rank, TxState.rank, hphase]
    show 41 * s.queuedNum + (if ∃ r' < r, s.txHwq r' ≠ [] then r else 20 + r) < _
    split <;> omega
  | pop htask hq =>
    rename_i r outFrm rest
    rw [htask] at hleft
    have hnum := total_length_pop hleft hq
    rw [← TxState.queuedNum] at hnum
    rw [TxState.rank, TxState.rank]
    show 41 * total priQNum List.length (Function.update s.txHwq r rest) + 40 < _
    omega
  | skip htask hframe =>
    have hsome := hbooks.held _ _ htask
    rw [hframe] at hsome
    cases hsome
  | count htask _ =>
    show 41 * s.queuedNum + 39 < 41 * s.queuedNum + s.phase
    simp [TxState.phase, htask]
  | free htask =>
    show 41 * s.queuedNum + 38 < 41 * s.queuedNum + s.phase
    simp [TxState.phase, htask]
  | giveBack htask =>
    rw [htask] at hleft
    have hphase : s.phase = 38 := by simp [TxState.phase, htask]
    split
    · show 41 * s.queuedNum + 37 < 41 * s.queuedNum + s.phase
      omega
    · exact rank_scan_lt rfl hleft rfl (by omega)
  | waitedMore htask =>
    rw [htask] at hleft htokens
    have hwake : 0 < s.sema := hsema (by simp only at htokens; omega)
    have hphase : s.phase = 37 := by simp [TxState.phase, htask]
    rw [semWait, if_pos hwake]
    exact rank_scan_lt rfl hleft rfl (by omega)
  | idle htask =>
    obtain ⟨r, hr, hne⟩ := exists_of_queuedNum_ne_zero (hfetch (by rw [htask]; rfl))
    exact absurd ⟨h.left htask, r, hr, by simp [htask, TxPc.Passed, TxPc.left], hne⟩ hstranded

/-- After a caller's turn there is a token at hand if there is one at all. -/
theorem sema_signalFrm_pos {cfg : TxCfg} {s : TxState} (h : 0 < (signalFrm cfg s).tokens) :
    0 < (signalFrm cfg s).sema := by
  have hmax : 0 < cfg.txsemaMaxNum := by
    rw [TxCfg.txsemaMaxNum]
    omega
  by_cases hsignal : 0 < s.signals ∧ s.sema < cfg.txsemaMaxNum
  · simp only [signalFrm, if_pos hsignal]
    omega
  · simp only [signalFrm, if_neg hsignal, TxState.tokens] at h ⊢
    omega

/-- Left to itself, the task gets all its work done when nothing is stranded. -/
theorem exists_rounds_drained {cfg : TxCfg} : ∀ {s : TxState}, Served cfg s → ¬ Stranded s →
    ∃ n, Drained (Machine.run (txStep cfg) s (rounds n)).1 := by
  intro s
  induction hrank : s.rank using Nat.strong_induction_on generalizing s with
  | h k ih =>
    intro h hstranded
    by_cases hdrained : Drained s
    · exact ⟨0, hdrained⟩
    have hsignalled : Served cfg (signalFrm cfg s) := h.step .signal
    have hstep := taskStep_txTask (signalFrm cfg s) false
    have hstranded' : ¬ Stranded (signalFrm cfg s) := by
      simpa only [Stranded, signalFrm_currMode, signalFrm_task, signalFrm_txHwq] using hstranded
    have hdrained' : ¬ Drained (signalFrm cfg s) := by
      simpa only [Drained, TxState.queued, signalFrm_task, signalFrm_txHwq] using hdrained
    have hsame : (signalFrm cfg s).rank = s.rank := by
      simp only [TxState.rank, TxState.queuedNum, TxState.phase, signalFrm_task, signalFrm_txHwq]
    have hlt := rank_taskStep_lt hsignalled sema_signalFrm_pos hstranded' hdrained' hstep
    rw [hsame, hrank] at hlt
    obtain ⟨n, hn⟩ := ih _ hlt rfl (hsignalled.step (.task false))
      (by rw [stranded_taskStep_iff hstep]; exact hstranded')
    exact ⟨n + 1, hn⟩

/-- A stranded frame stays queued. -/
theorem not_drained_of_stranded {s : TxState} (hframed : ∀ r, ∀ e ∈ s.txHwq r, e.frame.isSome)
    (h : Stranded s) : ¬ Drained s := by
  intro hdrained
  obtain ⟨-, r, hr, -, hne⟩ := h
  have hzero : s.queued = 0 := (add_eq_zero.mp hdrained).1
  have hnum : s.queuedNum = 0 := by rw [← card_queued hframed, hzero, Multiset.card_zero]
  rw [TxState.queuedNum, total_length_eq_zero] at hnum
  exact hne (hnum r hr)

/-! ## The whole run -/

theorem served_txRun (cfg : TxCfg) (is : List TxIn) : Served cfg (txRun cfg is).1 :=
  Machine.run_absorbing (B := Served cfg) (fun _ inp h => h.step inp) (served_txInit cfg) is

/-- Freed is what was accepted, exactly when nothing is under way. -/
theorem Accounted.freed_eq_iff {cfg : TxCfg} {s : TxState} {tr : List TxOut}
    (h : Accounted cfg s tr) :
    (freed tr : Multiset TxFrame) = (accepted tr : Multiset TxFrame) ↔ Drained s := by
  rw [h.frames, Drained]
  constructor
  · intro heq
    exact left_eq_add.mp (heq.trans (add_comm _ _))
  · intro hzero
    rw [hzero, zero_add]

/-- A frame left behind is not freed, however long the task goes on. -/
theorem freed_ne_accepted_of_stranded {cfg : TxCfg} {is : List TxIn}
    (h : Stranded (txRun cfg is).1) (n : ℕ) :
    (freed (txRun cfg (is ++ rounds n)).2 : Multiset TxFrame)
      ≠ (accepted (txRun cfg (is ++ rounds n)).2 : Multiset TxFrame) := by
  have hbooks := accounted_txRun cfg (is ++ rounds n)
  have hlater : Stranded (txRun cfg (is ++ rounds n)).1 := by
    rw [txRun, Machine.run_append]
    exact Machine.run_absorbing
      (fun s inp hs => (stranded_txStep_iff cfg s inp).mpr (.inl hs)) h _
  rw [ne_eq, hbooks.freed_eq_iff]
  exact not_drained_of_stranded hbooks.framed hlater

theorem exists_freed_eq_accepted {cfg : TxCfg} {is : List TxIn}
    (h : ¬ Stranded (txRun cfg is).1) :
    ∃ n, (freed (txRun cfg (is ++ rounds n)).2 : Multiset TxFrame)
      = (accepted (txRun cfg (is ++ rounds n)).2 : Multiset TxFrame) := by
  obtain ⟨n, hn⟩ := exists_rounds_drained (served_txRun cfg is) h
  refine ⟨n, (accounted_txRun cfg (is ++ rounds n)).freed_eq_iff.mpr ?_⟩
  rw [txRun, Machine.run_append]
  exact hn

/-- In every run the books agree: the nodes are conserved, the counters count what they should, and
each accepted frame is queued, in the hands of the task, or freed. Given the time, the task frees
every accepted frame exactly when no step of the run leaves a frame behind in `MT_EXIT`. -/
theorem txRun_accounted_freed_iff (cfg : TxCfg) (is : List TxIn) :
    Accounted cfg (txRun cfg is).1 (txRun cfg is).2 ∧
      ((∃ n, (freed (txRun cfg (is ++ rounds n)).2 : Multiset TxFrame)
          = (accepted (txRun cfg (is ++ rounds n)).2 : Multiset TxFrame))
        ↔ Machine.Meets (txStep cfg) NotStranding (txInit cfg) is) := by
  refine ⟨accounted_txRun cfg is, ?_⟩
  rw [Machine.meets_iff_not_of_absorbing (stranded_txStep_iff cfg) (not_stranded_txInit cfg) is]
  constructor
  · rintro ⟨n, hn⟩ hstranded
    exact freed_ne_accepted_of_stranded hstranded n hn
  · exact exists_freed_eq_accepted

/-- A data frame is accepted in `MT_RUNNING`; before the task is back at its queues the mode goes to
`MT_STOP` and `MT_EXIT`. -/
def exitRun : List TxIn :=
  [.setOpMode .running, .call ⟨1, true⟩ pri0, .enqueue ⟨1, true⟩ pri0, .signal,
    .setOpMode .stop, .setOpMode .exit]

/-- The frame is counted as one to be flushed, and the task leaves without it. -/
theorem exitRun_not_freed :
    ¬ ∃ n, (freed (txRun ⟨72, 16, by decide, by decide⟩ (exitRun ++ rounds n)).2 : Multiset TxFrame)
      = (accepted (txRun ⟨72, 16, by decide, by decide⟩ (exitRun ++ rounds n)).2 :
          Multiset TxFrame) := by
  rintro ⟨n, hn⟩
  exact freed_ne_accepted_of_stranded ⟨by decide, 0, by decide, by decide, by decide⟩ n hn

end Fullmac.Tx
