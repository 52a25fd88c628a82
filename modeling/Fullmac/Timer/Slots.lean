import Fullmac.Timer.Model

/-!
# Where the timer slots are

Each step moves a slot along one edge of a small graph: from the free list into a `TMR_EVT_CREATE`
message, on to the counting list, then back to the free list or to the expired list with an expiry
event, from the event to a `TMR_EVT_FREE` message, and with that message back to the free list.
`SlotMove` is that graph on the numbers of places a slot is in, and `tally_step` says that a step of
the machine takes one of its edges for every slot. The edges that lose a slot belong to three
failures the code does not handle.
-/

namespace Fullmac.Timer

/-! ## Messages and events in flight -/

def Phase.msgs : Phase → List TmrMsg
  | .first msg => msg.toList
  | .second => []

/-- The message the timer task has fetched and not yet handled. -/
def TaskPc.msgs : TaskPc → List TmrMsg
  | .fetch => []
  | .update ph _ => ph.msgs
  | .expire ph => ph.msgs
  | .post ph _ => ph.msgs
  | .handle msg => msg.toList

@[simp] theorem TaskPc.msgs_fetch : TaskPc.fetch.msgs = [] := rfl
@[simp] theorem TaskPc.msgs_update (ph : Phase) (e : ℕ) : (TaskPc.update ph e).msgs = ph.msgs := rfl
@[simp] theorem TaskPc.msgs_expire (ph : Phase) : (TaskPc.expire ph).msgs = ph.msgs := rfl
@[simp] theorem TaskPc.msgs_post (ph : Phase) (ev : ExpiryEvent) :
    (TaskPc.post ph ev).msgs = ph.msgs := rfl
@[simp] theorem TaskPc.msgs_handle (msg : Option TmrMsg) :
    (TaskPc.handle msg).msgs = msg.toList := rfl
@[simp] theorem Phase.msgs_first (msg : Option TmrMsg) : (Phase.first msg).msgs = msg.toList := rfl
@[simp] theorem Phase.msgs_second : Phase.second.msgs = [] := rfl

@[simp] theorem Phase.next_msgs (ph : Phase) : ph.next.msgs = ph.msgs := by
  cases ph <;> rfl

/-- The messages to the timer task in flight, in the order in which they will be handled. -/
def TimerState.inFlight (s : TimerState) : List TmrMsg := s.task.msgs ++ s.tmrMbox

/-- The event the timer task is about to post. -/
def TaskPc.events : TaskPc → List ExpiryEvent
  | .post _ ev => [ev]
  | _ => []

@[simp] theorem TaskPc.events_fetch : TaskPc.fetch.events = [] := rfl
@[simp] theorem TaskPc.events_update (ph : Phase) (e : ℕ) : (TaskPc.update ph e).events = [] := rfl
@[simp] theorem TaskPc.events_expire (ph : Phase) : (TaskPc.expire ph).events = [] := rfl
@[simp] theorem TaskPc.events_post (ph : Phase) (ev : ExpiryEvent) :
    (TaskPc.post ph ev).events = [ev] := rfl
@[simp] theorem TaskPc.events_handle (msg : Option TmrMsg) : (TaskPc.handle msg).events = [] := rfl

@[simp] theorem Phase.next_events (ph : Phase) : ph.next.events = [] := by
  cases ph <;> rfl

/-- The expiry events not yet taken by the handler task. -/
def TimerState.events (s : TimerState) : List ExpiryEvent := s.infoMbox ++ s.task.events

/-- The slots whose expiry event is undelivered: `os_timer_expired` has not returned for it. -/
def TimerState.undelivered (s : TimerState) : List SlotId :=
  s.handling.toList ++ s.events.map ExpiryEvent.tmr

/-- The slot of a `TMR_EVT_CREATE` message. -/
def TmrMsg.created : TmrMsg → List SlotId
  | .create tmr => [tmr]
  | _ => []

/-- The slot of a `TMR_EVT_FREE` message. -/
def TmrMsg.freed : TmrMsg → List SlotId
  | .free tmr => [tmr]
  | _ => []

/-- The slots of the `TMR_EVT_CREATE` messages in flight. -/
def TimerState.creates (s : TimerState) : List SlotId := s.inFlight.flatMap TmrMsg.created

/-- The slots of the `TMR_EVT_FREE` messages in flight. -/
def TimerState.frees (s : TimerState) : List SlotId := s.inFlight.flatMap TmrMsg.freed

/-! ## The moves of one slot -/

/-- In how many places of each kind a slot is. -/
structure Tally where
  free : ℕ
  tmr : ℕ
  expired : ℕ
  creates : ℕ
  undelivered : ℕ
  frees : ℕ

def TimerState.tally (s : TimerState) (i : SlotId) : Tally where
  free := s.freeTmrHd.count i
  tmr := s.tmrHd.count i
  expired := s.expiredTmrHd.count i
  creates := s.creates.count i
  undelivered := s.undelivered.count i
  frees := s.frees.count i

/-- The edges a slot can move along. The last two are open only if something is lost. -/
inductive SlotMove (lossy : Prop) (v w : Tally) : Prop
  | stay (h : w = v)
  | create (hfree : v.free = w.free + 1) (hcreates : w.creates = v.creates + 1)
      (h : w = { v with free := w.free, creates := w.creates })
  | arm (hcreates : v.creates = w.creates + 1) (htmr : w.tmr = v.tmr + 1)
      (h : w = { v with creates := w.creates, tmr := w.tmr })
  | disarm (h : w = { v with tmr := w.tmr, free := w.free })
      (hsum : w.tmr + w.free = v.tmr + v.free)
  | expire (htmr : v.tmr = w.tmr + 1) (hexpired : w.expired = v.expired + 1)
      (hevent : w.undelivered = v.undelivered + 1)
      (h : w = { v with tmr := w.tmr, expired := w.expired, undelivered := w.undelivered })
  | deliver (hevent : v.undelivered = w.undelivered + 1) (hfrees : w.frees = v.frees + 1)
      (h : w = { v with undelivered := w.undelivered, frees := w.frees })
  | free (hfrees : v.frees = w.frees + 1) (hexpired : w.expired = 0)
      (hfree : w.free = v.free + v.expired)
      (h : w = { v with frees := w.frees, expired := w.expired, free := w.free })
  | loseSlot (hlossy : lossy) (hfree : v.free = w.free + 1) (h : w = { v with free := w.free })
  | loseEvent (hlossy : lossy) (hevent : v.undelivered = w.undelivered + 1)
      (h : w = { v with undelivered := w.undelivered })

/-- No failure loses anything: a slot that `os_create_timer` took is posted, an expiry event is
posted, and so is the message of `os_free_timer`. Other failures are allowed. -/
def Lossless (s : TimerState) : TimerIn → Prop
  | .create _ _ _ alloc post => s.freeTmrHd = [] ∨ (alloc ∧ post)
  | .task _ _ post => s.task.events = [] ∨ post
  | .release alloc post => s.handling = none ∨ (alloc ∧ post)
  | _ => True

instance (s : TimerState) : DecidablePred (Lossless s)
  | .create _ _ _ alloc post => inferInstanceAs (Decidable (s.freeTmrHd = [] ∨ (alloc ∧ post)))
  | .task _ _ post => inferInstanceAs (Decidable (s.task.events = [] ∨ post))
  | .release alloc post => inferInstanceAs (Decidable (s.handling = none ∨ (alloc ∧ post)))
  | .cancel _ _ _ => inferInstanceAs (Decidable True)
  | .fetch _ => inferInstanceAs (Decidable True)
  | .timeout => inferInstanceAs (Decidable True)
  | .expired => inferInstanceAs (Decidable True)

/-! ## What the operations do to the lists -/

theorem count_insertTimer (i j : SlotId) (ms : ℕ) (l : List SlotId) (rem : SlotId → ℕ) :
    (insertTimer i ms l rem).1.count j = l.count j + if i = j then 1 else 0 := by
  induction l generalizing ms with
  | nil => simp [insertTimer, List.count_cons]
  | cons t ts ih =>
    rw [insertTimer]
    split
    · simp [List.count_cons]
    · simp only [List.count_cons, ih]
      omega

theorem count_cancelWalk (timer : SlotId → OsTimer) (key : TimerKey) (j : SlotId)
    (l : List SlotId) (rem : SlotId → ℕ) :
    l.count j = (cancelWalk timer key l rem).1.count j
      + (cancelWalk timer key l rem).2.1.count j := by
  induction l with
  | nil => simp [cancelWalk]
  | cons t ts ih =>
    rw [cancelWalk]
    split
    · split
      · simp [List.count_cons]
      · simp only [List.count_cons, ih]
        omega
    · simp only [List.count_cons, ih]
      omega

/-- Only the lists and the tasks decide where a slot is. -/
theorem tally_congr {s s' : TimerState} {i : SlotId} (hfree : s'.freeTmrHd = s.freeTmrHd)
    (htmr : s'.tmrHd = s.tmrHd) (hexpired : s'.expiredTmrHd = s.expiredTmrHd)
    (hmsgs : s'.inFlight = s.inFlight) (hevents : s'.undelivered = s.undelivered) :
    s'.tally i = s.tally i := by
  simp only [TimerState.tally, TimerState.creates, TimerState.frees, hfree, htmr, hexpired, hmsgs,
    hevents]

/-! ## The calls -/

theorem slotMove_osCreateTimer (s : TimerState) (ms : ℕ) (key : TimerKey) (mbx alloc post : Bool)
    (i : SlotId) :
    SlotMove (¬ Lossless s (.create ms key mbx alloc post)) (s.tally i)
      ((osCreateTimer s ms key mbx alloc post).1.tally i) := by
  rw [osCreateTimer]
  split
  · exact .stay rfl
  · rename_i j rest hfree
    by_cases hij : j = i
    · subst hij
      dsimp only
      split
      · refine .create ?_ ?_ ?_
        · simp [TimerState.tally, hfree]
        · simp [TimerState.tally, TimerState.creates, TimerState.inFlight, TmrMsg.created]
          omega
        · simp [TimerState.tally, TimerState.frees, TimerState.inFlight, TmrMsg.freed,
            TimerState.undelivered, TimerState.events]
      · rename_i hpost
        refine .loseSlot ?_ ?_ ?_
        · simp only [Lossless, hfree, hpost, or_false]
          simp
        · simp [TimerState.tally, hfree]
        · simp [TimerState.tally, TimerState.frees, TimerState.creates, TimerState.inFlight,
            TimerState.undelivered, TimerState.events]
    · refine .stay ?_
      dsimp only
      split <;> simp [TimerState.tally, TimerState.frees, TimerState.creates, TimerState.inFlight,
        TimerState.undelivered, TimerState.events, TmrMsg.created, TmrMsg.freed, hfree, hij]

theorem slotMove_osCancelTimer (s : TimerState) (key : TimerKey) (alloc post : Bool) (i : SlotId)
    (lossy : Prop) : SlotMove lossy (s.tally i) ((osCancelTimer s key alloc post).tally i) := by
  rw [osCancelTimer]
  split
  · refine .stay ?_
    simp [TimerState.tally, TimerState.frees, TimerState.creates, TimerState.inFlight,
      TimerState.undelivered, TimerState.events, TmrMsg.created, TmrMsg.freed]
  · exact .stay rfl

theorem slotMove_osTimerExpired (s : TimerState) (i : SlotId) (lossy : Prop) :
    SlotMove lossy (s.tally i) ((osTimerExpired s).1.tally i) := by
  rw [osTimerExpired]
  split
  · rename_i ev evs hhandling hmbox
    refine .stay (tally_congr rfl rfl rfl rfl ?_)
    simp [TimerState.undelivered, TimerState.events, hhandling, hmbox]
  · exact .stay rfl

theorem slotMove_osFreeTimer (s : TimerState) (alloc post : Bool) (i : SlotId) :
    SlotMove (¬ Lossless s (.release alloc post)) (s.tally i)
      ((osFreeTimer s alloc post).tally i) := by
  rw [osFreeTimer]
  split
  · exact .stay rfl
  · rename_i tmr hhandling
    by_cases hi : tmr = i
    · subst hi
      by_cases hpost : alloc = true ∧ post = true
      · rw [if_pos hpost]
        refine .deliver ?_ ?_ ?_
        · simp [TimerState.tally, TimerState.undelivered, TimerState.events, hhandling]
        · simp [TimerState.tally, TimerState.frees, TimerState.inFlight, TmrMsg.freed]
          omega
        · simp [TimerState.tally, TimerState.creates, TimerState.inFlight, TmrMsg.created]
      · rw [if_neg hpost]
        refine .loseEvent ?_ ?_ ?_
        · simp only [Lossless, hhandling, hpost, or_false]
          simp
        · simp [TimerState.tally, TimerState.undelivered, TimerState.events, hhandling]
        · simp [TimerState.tally, TimerState.creates, TimerState.frees, TimerState.inFlight]
    · refine .stay ?_
      split <;> simp [TimerState.tally, TimerState.frees, TimerState.creates, TimerState.inFlight,
        TimerState.undelivered, TimerState.events, TmrMsg.created, TmrMsg.freed, hhandling, hi]

/-! ## The timer task -/

theorem slotMove_fetchMsg (s : TimerState) (xElapsed : ℕ) (i : SlotId) (lossy : Prop) :
    SlotMove lossy (s.tally i) ((fetchMsg s xElapsed).tally i) := by
  rw [fetchMsg]
  split
  · rename_i m ms htask hmbox
    refine .stay (tally_congr rfl rfl rfl ?_ ?_)
    · simp [TimerState.inFlight, TaskPc.msgs, Phase.msgs, htask, hmbox]
    · simp [TimerState.undelivered, TimerState.events, TaskPc.events, htask]
  · exact .stay rfl

theorem slotMove_fetchTimeout (s : TimerState) (i : SlotId) (lossy : Prop) :
    SlotMove lossy (s.tally i) ((fetchTimeout s).tally i) := by
  rw [fetchTimeout]
  split
  · rename_i t ts htask htmr
    refine .stay (tally_congr rfl rfl rfl ?_ ?_)
    · simp [TimerState.inFlight, TaskPc.msgs, Phase.msgs, htask]
    · simp [TimerState.undelivered, TimerState.events, TaskPc.events, htask]
  · exact .stay rfl

/-- Leaving the expiry loop or going on with it changes no list. -/
theorem tally_expireNext (s : TimerState) (ph : Phase) (i : SlotId) :
    (expireNext s ph).tally i = TimerState.tally { s with task := .expire ph } i := by
  rw [expireNext]
  split
  · exact tally_congr rfl rfl rfl (by simp [TimerState.inFlight])
      (by simp [TimerState.undelivered, TimerState.events])
  · refine tally_congr rfl rfl rfl ?_ ?_
    · simp only [TimerState.inFlight]
      split <;> simp
    · simp only [TimerState.undelivered, TimerState.events]
      split <;> simp

theorem slotMove_updateAllTimer (s : TimerState) (ph : Phase) (xElapsed e : ℕ)
    (htask : s.task = .update ph e) (i : SlotId) (lossy : Prop) :
    SlotMove lossy (s.tally i) ((updateAllTimer s ph xElapsed).tally i) := by
  rw [updateAllTimer]
  refine .stay ?_
  split
  · exact tally_congr rfl rfl rfl (by simp [TimerState.inFlight, htask])
      (by simp [TimerState.undelivered, TimerState.events, htask])
  split <;> exact tally_congr rfl rfl rfl (by simp [TimerState.inFlight, htask])
    (by simp [TimerState.undelivered, TimerState.events, htask])

theorem slotMove_expireOne (s : TimerState) (ph : Phase) (htask : s.task = .expire ph)
    (alloc : Bool) (i : SlotId) (lossy : Prop) :
    SlotMove lossy (s.tally i) ((expireOne s ph alloc).tally i) := by
  rw [expireOne]
  split
  · exact .stay (tally_congr rfl rfl rfl (by simp [TimerState.inFlight, htask])
      (by simp [TimerState.undelivered, TimerState.events, htask]))
  rename_i t ts htmr
  split
  · by_cases hi : t = i
    · subst hi
      refine .expire ?_ ?_ ?_ ?_
      · simp [TimerState.tally, htmr]
      · simp [TimerState.tally]
      · simp [TimerState.tally, TimerState.undelivered, TimerState.events, htask]
        omega
      · simp [TimerState.tally, TimerState.creates, TimerState.frees, TimerState.inFlight, htask]
    · refine .stay ?_
      simp [TimerState.tally, TimerState.creates, TimerState.frees, TimerState.inFlight,
        TimerState.undelivered, TimerState.events, htask, htmr, hi]
  · rw [tally_expireNext]
    by_cases hi : t = i
    · subst hi
      refine .disarm ?_ ?_
      · simp [TimerState.tally, TimerState.creates, TimerState.frees, TimerState.inFlight,
          TimerState.undelivered, TimerState.events, htask]
      · simp [TimerState.tally, htmr]
        omega
    · refine .stay ?_
      simp [TimerState.tally, TimerState.creates, TimerState.frees, TimerState.inFlight,
        TimerState.undelivered, TimerState.events, htask, htmr, hi]

theorem slotMove_post (s : TimerState) (ph : Phase) (ev : ExpiryEvent)
    (htask : s.task = .post ph ev) (xElapsed : ℕ) (alloc post : Bool) (i : SlotId) :
    SlotMove (¬ Lossless s (.task xElapsed alloc post)) (s.tally i)
      ((expireNext { s with infoMbox := if post then s.infoMbox ++ [ev] else s.infoMbox }
        ph).tally i) := by
  rw [tally_expireNext]
  cases post with
  | true =>
    exact .stay (tally_congr rfl rfl rfl (by simp [TimerState.inFlight, htask])
      (by simp [TimerState.undelivered, TimerState.events, htask]))
  | false =>
    by_cases hi : ev.tmr = i
    · subst hi
      refine .loseEvent ?_ ?_ ?_
      · simp [Lossless, htask]
      · simp [TimerState.tally, TimerState.undelivered, TimerState.events, htask]
        omega
      · simp [TimerState.tally, TimerState.creates, TimerState.frees, TimerState.inFlight, htask]
    · refine .stay ?_
      simp [TimerState.tally, TimerState.creates, TimerState.frees, TimerState.inFlight,
        TimerState.undelivered, TimerState.events, htask, hi]

/-- `_free_timer` takes every occurrence of its slot off the expired list. -/
theorem count_freeTimer (s : TimerState) (tmr i : SlotId) :
    (freeTimer s tmr).expiredTmrHd.count i = (if tmr = i then 0 else s.expiredTmrHd.count i) ∧
      (freeTimer s tmr).freeTmrHd.count i
        = s.freeTmrHd.count i + if tmr = i then s.expiredTmrHd.count i else 0 := by
  by_cases hmem : tmr ∈ s.expiredTmrHd
  · rw [freeTimer, if_pos hmem]
    by_cases hi : tmr = i
    · subst hi
      simp [List.count_eq_zero, List.count_filter]
    · have hne : i ≠ tmr := fun h => hi h.symm
      simp [List.count_filter, hne, hi, List.count_eq_zero]
  · rw [freeTimer, if_neg hmem]
    by_cases hi : tmr = i
    · subst hi
      simp [List.count_eq_zero, hmem]
    · simp [hi]

theorem slotMove_handleMsg (s : TimerState) (m : TmrMsg) (htask : s.task = .handle (some m))
    (xElapsed : ℕ) (i : SlotId) (lossy : Prop) :
    SlotMove lossy (s.tally i)
      (TimerState.tally { (handleMsg s m).1 with task := .update .second xElapsed } i) := by
  cases m with
  | create tmr =>
    by_cases hi : tmr = i
    · subst hi
      refine .arm ?_ ?_ ?_
      · simp [TimerState.tally, TimerState.creates, TimerState.inFlight, htask, handleMsg,
          createTimer, TmrMsg.created]
      · simp [TimerState.tally, handleMsg, createTimer, count_insertTimer]
      · simp [TimerState.tally, TimerState.frees, TimerState.inFlight, htask, handleMsg,
          createTimer, TmrMsg.freed, TimerState.undelivered, TimerState.events]
    · refine .stay ?_
      simp [TimerState.tally, TimerState.creates, TimerState.frees, TimerState.inFlight,
        TimerState.undelivered, TimerState.events, htask, handleMsg, createTimer,
        count_insertTimer, TmrMsg.created, TmrMsg.freed, hi]
  | cancel key before =>
    have hcount := count_cancelWalk s.timer key i s.tmrHd s.msRemian
    refine .disarm ?_ ?_
    · simp [TimerState.tally, TimerState.creates, TimerState.frees, TimerState.inFlight,
        TimerState.undelivered, TimerState.events, htask, handleMsg, cancelTimer, TmrMsg.created,
        TmrMsg.freed]
    · simp only [TimerState.tally, handleMsg, cancelTimer, List.count_append]
      omega
  | free tmr =>
    obtain ⟨hexpired, hfree⟩ := count_freeTimer s tmr i
    have hkeeps : (freeTimer s tmr).tmrHd = s.tmrHd ∧ (freeTimer s tmr).tmrMbox = s.tmrMbox ∧
        (freeTimer s tmr).infoMbox = s.infoMbox ∧ (freeTimer s tmr).handling = s.handling := by
      rw [freeTimer]
      split <;> exact ⟨rfl, rfl, rfl, rfl⟩
    obtain ⟨htmr, hmbox, hinfo, hhandling⟩ := hkeeps
    by_cases hi : tmr = i
    · subst hi
      refine .free ?_ ?_ ?_ ?_
      · simp [TimerState.tally, TimerState.frees, TimerState.inFlight, htask, handleMsg, hmbox,
          TmrMsg.freed]
      · simpa [TimerState.tally, handleMsg] using hexpired
      · simpa [TimerState.tally, handleMsg] using hfree
      · simp [TimerState.tally, TimerState.creates, TimerState.inFlight, TimerState.undelivered,
          TimerState.events, htask, handleMsg, htmr, hmbox, hinfo, hhandling, TmrMsg.created]
    · refine .stay ?_
      simp only [if_neg hi, Nat.add_zero] at hexpired hfree
      simp [TimerState.tally, TimerState.creates, TimerState.frees, TimerState.inFlight,
        TimerState.undelivered, TimerState.events, htask, handleMsg, hexpired, hfree, htmr, hmbox,
        hinfo, hhandling, TmrMsg.created, TmrMsg.freed, hi]

theorem slotMove_taskStep (s : TimerState) (xElapsed : ℕ) (alloc post : Bool) (i : SlotId) :
    SlotMove (¬ Lossless s (.task xElapsed alloc post)) (s.tally i)
      ((taskStep s xElapsed alloc post).1.tally i) := by
  rw [taskStep]
  split
  · exact .stay rfl
  · rename_i ph e htask
    exact slotMove_updateAllTimer s ph e e htask i _
  · rename_i ph htask
    exact slotMove_expireOne s ph htask alloc i _
  · rename_i ph ev htask
    exact slotMove_post s ph ev htask xElapsed alloc post i
  · rename_i htask
    exact .stay (tally_congr rfl rfl rfl (by simp [TimerState.inFlight, htask])
      (by simp [TimerState.undelivered, TimerState.events, htask]))
  · rename_i m htask
    exact slotMove_handleMsg s m htask xElapsed i _

/-- Every step moves every slot along one edge, and loses it only where the step is not lossless. -/
theorem slotMove_timerStep (s : TimerState) (inp : TimerIn) (i : SlotId) :
    SlotMove (¬ Lossless s inp) (s.tally i) ((timerStep s inp).1.tally i) := by
  cases inp with
  | create ms key mbx alloc post => exact slotMove_osCreateTimer s ms key mbx alloc post i
  | cancel key alloc post => exact slotMove_osCancelTimer s key alloc post i _
  | fetch xElapsed => exact slotMove_fetchMsg s xElapsed i _
  | timeout => exact slotMove_fetchTimeout s i _
  | task xElapsed alloc post => exact slotMove_taskStep s xElapsed alloc post i
  | expired => exact slotMove_osTimerExpired s i _
  | release alloc post => exact slotMove_osFreeTimer s alloc post i

/-! ## No slot is lost -/

/-- A slot is in one place, and on the expired list exactly while an event or a `TMR_EVT_FREE`
message for it is under way. -/
structure Tally.Good (v : Tally) : Prop where
  once : v.free + v.tmr + v.expired + v.creates = 1
  awaited : v.expired = v.undelivered + v.frees

theorem Tally.Good.move {lossy : Prop} {v w : Tally} (hv : v.Good) (hlossy : ¬ lossy)
    (h : SlotMove lossy v w) : w.Good := by
  obtain ⟨once, awaited⟩ := hv
  cases h with
  | stay h => rw [h]; exact ⟨once, awaited⟩
  | create hfree hcreates h | arm hcreates htmr h =>
    constructor <;> rw [h] <;> simp only <;> omega
  | disarm h hsum => constructor <;> rw [h] <;> simp only <;> omega
  | expire htmr hexpired hevent h => constructor <;> rw [h] <;> simp only <;> omega
  | deliver hevent hfrees h => constructor <;> rw [h] <;> simp only <;> omega
  | free hfrees hexpired hfree h => constructor <;> rw [h] <;> simp only <;> omega
  | loseSlot hl => exact absurd hl hlossy
  | loseEvent hl => exact absurd hl hlossy

theorem good_osTimerInit (i : SlotId) : (osTimerInit.tally i).Good := by
  have hone : (List.finRange ssvTmrMax).count i = 1 :=
    List.count_eq_one_of_mem (List.nodup_finRange _) (List.mem_finRange i)
  constructor <;> simp [TimerState.tally, osTimerInit, hone, TimerState.creates, TimerState.frees,
    TimerState.undelivered, TimerState.events, TimerState.inFlight]

/-- Along every run without a losing failure all slots are accounted for. -/
theorem good_timerRun (is : List TimerIn) (h : Machine.Meets timerStep Lossless osTimerInit is)
    (i : SlotId) : ((timerRun is).1.tally i).Good :=
  Machine.run_induction_of_meets (C := Lossless) (P := fun s _ _ => ∀ i, (s.tally i).Good)
    good_osTimerInit
    (fun s _ _ inp hinp hg i => (hg i).move (not_not_intro hinp) (slotMove_timerStep s inp i))
    is h i

/-- Every slot is on one list or in one `TMR_EVT_CREATE` message, and when nothing is under way it
is free or counting. -/
structure NotLost (s : TimerState) : Prop where
  once : ∀ i, s.freeTmrHd.count i + s.tmrHd.count i + s.expiredTmrHd.count i + s.creates.count i = 1
  quiet : s.inFlight = [] → s.undelivered = [] → ∀ i, i ∈ s.freeTmrHd ∨ i ∈ s.tmrHd

theorem notLost_of_good {s : TimerState} (hgood : ∀ i, (s.tally i).Good) : NotLost s := by
  refine ⟨fun i => (hgood i).once, fun hmsgs hevents i => ?_⟩
  obtain ⟨once, awaited⟩ := hgood i
  simp only [TimerState.tally, TimerState.creates, TimerState.frees, hmsgs, hevents] at once awaited
  -- nothing is under way, so the slot is neither expired nor in a message
  rcases Nat.eq_zero_or_pos (s.freeTmrHd.count i) with hfree | hfree
  · have htmr : 0 < s.tmrHd.count i := by
      simp only [List.flatMap_nil, List.count_nil] at once awaited
      omega
    exact Or.inr (List.count_pos_iff.mp htmr)
  · exact Or.inl (List.count_pos_iff.mp hfree)

/-! ## What is lost stays lost -/

/-- Neither on the free nor on the counting list, and nothing under way that could bring it there.
-/
structure Tally.Stuck (v : Tally) : Prop where
  free : v.free = 0
  tmr : v.tmr = 0
  creates : v.creates = 0
  undelivered : v.undelivered = 0
  frees : v.frees = 0

theorem Tally.Stuck.move {lossy : Prop} {v w : Tally} (hv : v.Stuck) (h : SlotMove lossy v w) :
    w.Stuck := by
  obtain ⟨hfree, htmr, hcreates, hundelivered, hfrees⟩ := hv
  cases h with
  | stay h => rw [h]; exact ⟨hfree, htmr, hcreates, hundelivered, hfrees⟩
  | disarm h hsum =>
    refine ⟨by omega, by omega, ?_, ?_, ?_⟩ <;> rw [h] <;> assumption
  | create => omega
  | arm => omega
  | expire => omega
  | deliver => omega
  | free => omega
  | loseSlot => omega
  | loseEvent => omega

theorem stuck_run {s : TimerState} {i : SlotId} (h : (s.tally i).Stuck) (is : List TimerIn) :
    ((Machine.run timerStep s is).1.tally i).Stuck :=
  Machine.run_induction (P := fun (s : TimerState) _ _ => (s.tally i).Stuck) h
    (fun s _ _ inp hs => hs.move (slotMove_timerStep s inp i)) is

/-- A losing failure leaves a slot stuck. -/
theorem exists_stuck_of_not_lossless {s : TimerState} (hgood : ∀ i, (s.tally i).Good)
    {inp : TimerIn} (h : ¬ Lossless s inp) : ∃ i, ((timerStep s inp).1.tally i).Stuck := by
  -- in each case the slot that the failing call was about
  cases inp with
  | create ms key mbx alloc post =>
    simp only [Lossless, not_or] at h
    obtain ⟨j, rest, hfree⟩ := List.exists_cons_of_ne_nil h.1
    refine ⟨j, ?_⟩
    obtain ⟨once, awaited⟩ := hgood j
    simp only [TimerState.tally, hfree, List.count_cons_self] at once awaited
    constructor <;> simp only [timerStep, osCreateTimer, hfree, if_neg h.2, TimerState.tally,
      TimerState.creates, TimerState.frees, TimerState.inFlight, TimerState.undelivered,
      TimerState.events] at * <;> omega
  | task xElapsed alloc post =>
    simp only [Lossless, not_or] at h
    cases htask : s.task with
    | post ph ev =>
      refine ⟨ev.tmr, ?_⟩
      obtain ⟨once, awaited⟩ := hgood ev.tmr
      have hpost : post = false := by simpa using h.2
      simp only [timerStep, taskStep, htask, tally_expireNext, hpost]
      simp only [TimerState.tally, TimerState.creates, TimerState.frees, TimerState.inFlight,
        TimerState.undelivered, TimerState.events, htask, TaskPc.events_post, TaskPc.msgs_post,
        List.map_append, List.map_cons, List.map_nil, List.count_append, List.count_cons_self,
        List.count_nil] at once awaited
      constructor <;> simp only [TimerState.tally, TimerState.creates, TimerState.frees,
        TimerState.inFlight, TimerState.undelivered, TimerState.events, TaskPc.events_expire,
        TaskPc.msgs_expire, List.append_nil, List.count_append, Bool.false_eq_true, if_false] <;>
        omega
    | fetch => simp [htask] at h
    | update ph e => simp [htask] at h
    | expire ph => simp [htask] at h
    | handle msg => simp [htask] at h
  | release alloc post =>
    simp only [Lossless, not_or] at h
    obtain ⟨tmr, hhandling⟩ := Option.ne_none_iff_exists'.mp h.1
    refine ⟨tmr, ?_⟩
    obtain ⟨once, awaited⟩ := hgood tmr
    simp only [TimerState.tally, TimerState.undelivered, hhandling, Option.toList_some,
      List.singleton_append, List.count_cons_self] at once awaited
    constructor <;> simp only [timerStep, osFreeTimer, hhandling, if_neg h.2, TimerState.tally,
      TimerState.creates, TimerState.frees, TimerState.inFlight, TimerState.undelivered,
      TimerState.events, Option.toList_none, List.nil_append] at * <;> omega
  | cancel key alloc post => exact absurd trivial h
  | fetch xElapsed => exact absurd trivial h
  | timeout => exact absurd trivial h
  | expired => exact absurd trivial h

/-- **No slot is lost while no failure loses it.** In every run in which each slot that
`os_create_timer` takes is posted to the timer task, each expiry event is posted to the handler task
and each `os_free_timer` posts its message, whatever other allocations and posts fail, every slot is
at every moment on exactly one list or in exactly one `TMR_EVT_CREATE` message, and with nothing in
flight it is free or counting. After the first failure that breaks this, no quiet state is ever
right again. -/
theorem timerRun_notLost (is : List TimerIn)
    (h : Machine.Meets timerStep Lossless osTimerInit is) :
    NotLost (timerRun is).1 ∧
      ∀ inp, ¬ Lossless (timerRun is).1 inp → ∀ js : List TimerIn,
        (timerRun (is ++ inp :: js)).1.inFlight = [] →
        (timerRun (is ++ inp :: js)).1.undelivered = [] →
        ¬ NotLost (timerRun (is ++ inp :: js)).1 := by
  have hgood := good_timerRun is h
  refine ⟨notLost_of_good hgood, fun inp hinp js hmsgs hevents hnot => ?_⟩
  obtain ⟨i, hstuck⟩ := exists_stuck_of_not_lossless hgood hinp
  have hend : (timerRun (is ++ inp :: js)).1
      = (Machine.run timerStep (timerStep (timerRun is).1 inp).1 js).1 := by
    rw [timerRun, Machine.run_append, Machine.run_cons]
  have hstuck' := stuck_run hstuck js
  rw [← hend] at hstuck'
  rcases hnot.quiet hmsgs hevents i with hfree | htmr
  · exact List.count_pos_iff.mpr hfree |>.ne' hstuck'.free
  · exact List.count_pos_iff.mpr htmr |>.ne' hstuck'.tmr

/-- A timer that fires and is freed again, with a cancel that fails on the way. -/
theorem timerRun_notLost_firing :
    NotLost (timerRun [.create 5 ⟨1, 0, 0⟩ true true true, .cancel ⟨1, 0, 0⟩ false true,
      .fetch 0, .task 0 true true, .task 0 true true, .task 0 true true, .timeout,
      .task 0 true true, .task 0 true true, .task 0 true true, .expired,
      .release true true]).1 :=
  (timerRun_notLost _ (by simp [Machine.Meets, Lossless])).1

/-- An `os_create_timer` whose message cannot be allocated takes slot 0 with it. -/
theorem timerRun_lost_slot :
    ¬ NotLost (timerRun [.create 5 ⟨1, 0, 0⟩ true false true]).1 := by
  intro h
  have hnone : (timerRun [.create 5 ⟨1, 0, 0⟩ true false true]).1.freeTmrHd.count ⟨0, by decide⟩
      + (timerRun [.create 5 ⟨1, 0, 0⟩ true false true]).1.tmrHd.count ⟨0, by decide⟩
      + (timerRun [.create 5 ⟨1, 0, 0⟩ true false true]).1.expiredTmrHd.count ⟨0, by decide⟩
      + (timerRun [.create 5 ⟨1, 0, 0⟩ true false true]).1.creates.count ⟨0, by decide⟩ = 0 := by
    decide +kernel
  have hone := h.once ⟨0, by decide⟩
  omega

end Fullmac.Timer
