import Fullmac.Lib.Machine
import Mathlib.Algebra.Group.Nat.Defs
import Mathlib.Data.List.FinRange

/-!
# The software timers

Reference: `host/lib/ssv_timer.c` and `host/include/priv/ssv_timer.h`.

`SSV_TMR_MAX` timer slots move between three lists. A caller of `os_create_timer` takes a slot off
the free list and posts it to the timer task. The timer task keeps the counting slots in a delta
list and, when one runs out, moves it to the expired list and posts an event to the handler task.
The handler task runs the handler and posts the slot back to the timer task to be freed.

The parties are a timer task, a handler task and any number of callers, with two FIFO mailboxes
between them. One step of the machine is one stretch of code that no other party can interrupt: a
call of `os_create_timer` or `os_cancel_timer`, one iteration of the expiry loop up to the point
where it gives up the mutex, one post, one message handled. Every `msg_evt_alloc` and `msg_evt_post`
may fail; the thirty retries of the expiry loop only take time, so its allocation is one choice.
Nothing is assumed about clocks: the elapsed time is an input wherever the source reads a tick
count.

Two ghost numbers make runs comparable. `serial` numbers the calls of `os_create_timer` that got a
slot, and a `TMR_EVT_CANCEL` message remembers how many there were when it was posted.
-/

namespace Fullmac.Timer

/-- `SSV_TMR_MAX`. -/
def ssvTmrMax : ℕ := 24

/-- An element of `g_ssv_timer`. -/
abbrev SlotId := Fin ssvTmrMax

/-- `EN_TMR_STATE`. -/
inductive EnTmrState
  | free | cntDwn | tickPost | cancel
deriving DecidableEq, Repr

/-- What identifies a timer: the handler, 0 being the null pointer, and its two arguments. -/
structure TimerKey where
  handler : ℕ
  data1 : ℕ
  data2 : ℕ
deriving DecidableEq, Repr

/-- `struct os_timer` without its list links and its remaining time. `infombx` says whether a
mailbox was given. -/
structure OsTimer where
  key : TimerKey
  infombx : Bool
  enState : EnTmrState
  serial : ℕ
deriving DecidableEq, Repr

/-- A message to the timer task. -/
inductive TmrMsg
  | create (tmr : SlotId)
  | cancel (key : TimerKey) (before : ℕ)
  | free (tmr : SlotId)
deriving DecidableEq, Repr

/-- An expiry event: what the handler is to be called with, and the slot it belongs to. -/
structure ExpiryEvent where
  key : TimerKey
  tmr : SlotId
  serial : ℕ
deriving DecidableEq, Repr

/-- `_update_all_timer` is called twice in the loop of `SSV_Timer_Task`, before the fetched message
is handled and after it. -/
inductive Phase
  | first (msg : Option TmrMsg)
  | second
deriving DecidableEq, Repr

/-- Where the timer task stands. -/
inductive TaskPc
  | fetch
  | update (ph : Phase) (xElapsed : ℕ)
  | expire (ph : Phase)
  | post (ph : Phase) (ev : ExpiryEvent)
  | handle (msg : Option TmrMsg)
deriving DecidableEq, Repr

/-- The timers, the mailboxes and the two tasks. -/
structure TimerState where
  timer : SlotId → OsTimer
  msRemian : SlotId → ℕ
  freeTmrHd : List SlotId
  tmrHd : List SlotId
  expiredTmrHd : List SlotId
  tmrMbox : List TmrMsg
  infoMbox : List ExpiryEvent
  task : TaskPc
  /-- The slot whose handler has been dealt with and that `os_free_timer` is to be called on. -/
  handling : Option SlotId
  serial : ℕ

/-- `os_timer_init`. -/
def osTimerInit : TimerState where
  timer := fun _ => ⟨⟨0, 0, 0⟩, false, .free, 0⟩
  msRemian := fun _ => 0
  freeTmrHd := List.finRange ssvTmrMax
  tmrHd := []
  expiredTmrHd := []
  tmrMbox := []
  infoMbox := []
  task := .fetch
  handling := none
  serial := 0

/-- What can be seen of a run. -/
inductive TimerOut
  | created (key : TimerKey) (serial : ℕ)
  | cancelled (key : TimerKey) (before : ℕ)
  | invoked (key : TimerKey) (serial : ℕ)
deriving DecidableEq, Repr

/-! ## The operations of the timer task -/

/-- Shorten the remaining time of the slots behind a new timer. -/
def subtractFrom (ms : ℕ) : List SlotId → (SlotId → ℕ) → SlotId → ℕ
  | [], rem => rem
  | t :: ts, rem =>
    subtractFrom ms ts (if ms ≤ rem t then Function.update rem t (rem t - ms) else rem)

/-- The walk of `_create_timer`: `ms` is the remaining time of the new timer, shortened by what
stands before it. -/
def insertTimer (i : SlotId) : ℕ → List SlotId → (SlotId → ℕ) → List SlotId × (SlotId → ℕ)
  | ms, [], rem => ([i], Function.update rem i ms)
  | ms, t :: ts, rem =>
    if ms ≤ rem t then (i :: t :: ts, subtractFrom ms (t :: ts) (Function.update rem i ms))
    else
      let r := insertTimer i (ms - rem t) ts rem
      (t :: r.1, r.2)

/-- `_create_timer`. -/
def createTimer (s : TimerState) (i : SlotId) : TimerState :=
  let r := insertTimer i (s.msRemian i) s.tmrHd s.msRemian
  { s with
    timer := Function.update s.timer i { s.timer i with enState := .cntDwn }
    tmrHd := r.1
    msRemian := r.2 }

/-- Re-add the remaining time of a cancelled timer to those behind it. -/
def addTo (ms : ℕ) : List SlotId → (SlotId → ℕ) → SlotId → ℕ
  | [], rem => rem
  | t :: ts, rem => addTo ms ts (Function.update rem t ((rem t + ms) % 2 ^ 32))

/-- The walk of `_cancel_timer` over `tmr_hd`: the slots that stay, those that are taken out, and
the remaining times. Re-adding the remaining time moves the cursor of the walk to the end of the
list. -/
def cancelWalk (timer : SlotId → OsTimer) (key : TimerKey) :
    List SlotId → (SlotId → ℕ) → List SlotId × List SlotId × (SlotId → ℕ)
  | [], rem => ([], [], rem)
  | t :: ts, rem =>
    if (timer t).key = key then
      if 0 < rem t then (ts, [t], addTo (rem t) ts rem)
      else
        let r := cancelWalk timer key ts rem
        (r.1, t :: r.2.1, r.2.2)
    else
      let r := cancelWalk timer key ts rem
      (t :: r.1, r.2)

/-- A slot that goes back to the free list. -/
def OsTimer.freed (t : OsTimer) : OsTimer :=
  { t with key := { t.key with handler := 0 }, enState := .free }

/-- `_cancel_timer`. -/
def cancelTimer (s : TimerState) (key : TimerKey) : TimerState :=
  let r := cancelWalk s.timer key s.tmrHd s.msRemian
  let timer := fun i => if i ∈ r.2.1 then (s.timer i).freed else s.timer i
  { s with
    tmrHd := r.1
    freeTmrHd := s.freeTmrHd ++ r.2.1
    msRemian := r.2.2
    timer := fun i =>
      if i ∈ s.expiredTmrHd ∧ (timer i).key = key then { timer i with enState := .cancel }
      else timer i }

/-- `_free_timer`. -/
def freeTimer (s : TimerState) (tmr : SlotId) : TimerState :=
  if tmr ∈ s.expiredTmrHd then
    { s with
      timer := Function.update s.timer tmr (s.timer tmr).freed
      expiredTmrHd := s.expiredTmrHd.filter (· ≠ tmr)
      freeTmrHd := s.freeTmrHd ++ s.expiredTmrHd.filter (· = tmr) }
  else s

/-- The `switch` of `SSV_Timer_Task`. -/
def handleMsg (s : TimerState) : TmrMsg → TimerState × List TimerOut
  | .create tmr => (createTimer s tmr, [])
  | .cancel key before => (cancelTimer s key, [.cancelled key before])
  | .free tmr => (freeTimer s tmr, [])

/-- What follows a call of `_update_all_timer`. -/
def Phase.next : Phase → TaskPc
  | .first msg => .handle msg
  | .second => .fetch

/-- The end of the expiry loop: go on while the first timer has no time left. -/
def expireNext (s : TimerState) (ph : Phase) : TimerState :=
  match s.tmrHd with
  | [] => { s with task := ph.next }
  | t :: _ => { s with task := if s.msRemian t = 0 then .expire ph else ph.next }

/-- One iteration of the expiry loop, up to the post. -/
def expireOne (s : TimerState) (ph : Phase) (alloc : Bool) : TimerState :=
  match s.tmrHd with
  | [] => { s with task := ph.next }
  | t :: ts =>
    if (s.timer t).key.handler ≠ 0 ∧ alloc ∧ (s.timer t).infombx then
      { s with
        tmrHd := ts
        expiredTmrHd := s.expiredTmrHd ++ [t]
        timer := Function.update s.timer t { s.timer t with enState := .tickPost }
        task := .post ph ⟨(s.timer t).key, t, (s.timer t).serial⟩ }
    else
      -- no handler, no message to be had after all retries, or no mailbox
      expireNext
        { s with
          tmrHd := ts
          freeTmrHd := s.freeTmrHd ++ [t]
          timer := Function.update s.timer t { s.timer t with enState := .free } } ph

/-- The beginning of `_update_all_timer`. -/
def updateAllTimer (s : TimerState) (ph : Phase) (xElapsed : ℕ) : TimerState :=
  match s.tmrHd with
  | [] => { s with task := ph.next }
  | t :: _ =>
    if xElapsed < s.msRemian t then
      { s with
        msRemian := Function.update s.msRemian t (s.msRemian t - xElapsed)
        task := ph.next }
    else { s with task := .expire ph }

/-! ## The machine -/

/-- What the environment decides: who moves, and how what it calls turns out. -/
inductive TimerIn
  | create (ms : ℕ) (key : TimerKey) (mbx alloc post : Bool)
  | cancel (key : TimerKey) (alloc post : Bool)
  | fetch (xElapsed : ℕ)
  | timeout
  | task (xElapsed : ℕ) (alloc post : Bool)
  | expired
  | release (alloc post : Bool)
deriving DecidableEq, Repr

/-- `os_create_timer`. A slot whose message cannot be allocated or posted is not put back. -/
def osCreateTimer (s : TimerState) (ms : ℕ) (key : TimerKey) (mbx alloc post : Bool) :
    TimerState × List TimerOut :=
  match s.freeTmrHd with
  | [] => (s, [])
  | i :: rest =>
    let s' := { s with
      freeTmrHd := rest
      timer := Function.update s.timer i
        { s.timer i with key := key, infombx := mbx, serial := s.serial }
      msRemian := Function.update s.msRemian i ms
      serial := s.serial + 1 }
    if alloc ∧ post then
      ({ s' with tmrMbox := s'.tmrMbox ++ [.create i] }, [.created key s.serial])
    else (s', [])

/-- `os_cancel_timer`. -/
def osCancelTimer (s : TimerState) (key : TimerKey) (alloc post : Bool) : TimerState :=
  if alloc ∧ post then { s with tmrMbox := s.tmrMbox ++ [.cancel key s.serial] } else s

/-- The timer task waits for a message, with a timeout if a timer is counting. -/
def fetchMsg (s : TimerState) (xElapsed : ℕ) : TimerState :=
  match s.task, s.tmrMbox with
  | .fetch, m :: ms =>
    { s with
      tmrMbox := ms
      task := .update (.first (some m)) (if s.tmrHd = [] then 0 else xElapsed) }
  | _, _ => s

/-- The wait ends without a message. -/
def fetchTimeout (s : TimerState) : TimerState :=
  match s.task, s.tmrHd with
  | .fetch, t :: _ => { s with task := .update (.first none) (s.msRemian t) }
  | _, _ => s

/-- The timer task goes on from where it stands. -/
def taskStep (s : TimerState) (xElapsed : ℕ) (alloc post : Bool) : TimerState × List TimerOut :=
  match s.task with
  | .fetch => (s, [])
  | .update ph e => (updateAllTimer s ph e, [])
  | .expire ph => (expireOne s ph alloc, [])
  | .post ph ev =>
    (expireNext { s with infoMbox := if post then s.infoMbox ++ [ev] else s.infoMbox } ph, [])
  | .handle none => ({ s with task := .update .second xElapsed }, [])
  | .handle (some m) =>
    let r := handleMsg s m
    ({ r.1 with task := .update .second xElapsed }, r.2)

/-- `os_timer_expired`, up to its call of `os_free_timer`. -/
def osTimerExpired (s : TimerState) : TimerState × List TimerOut :=
  match s.handling, s.infoMbox with
  | none, ev :: evs =>
    ({ s with infoMbox := evs, handling := some ev.tmr },
      if (s.timer ev.tmr).enState = .tickPost then [.invoked ev.key ev.serial] else [])
  | _, _ => (s, [])

/-- `os_free_timer`, called at the end of `os_timer_expired`. -/
def osFreeTimer (s : TimerState) (alloc post : Bool) : TimerState :=
  match s.handling with
  | none => s
  | some tmr =>
    { s with
      handling := none
      tmrMbox := if alloc ∧ post then s.tmrMbox ++ [.free tmr] else s.tmrMbox }

/-- One step. An input that is not enabled changes nothing. -/
def timerStep (s : TimerState) : TimerIn → TimerState × List TimerOut
  | .create ms key mbx alloc post => osCreateTimer s ms key mbx alloc post
  | .cancel key alloc post => (osCancelTimer s key alloc post, [])
  | .fetch xElapsed => (fetchMsg s xElapsed, [])
  | .timeout => (fetchTimeout s, [])
  | .task xElapsed alloc post => taskStep s xElapsed alloc post
  | .expired => osTimerExpired s
  | .release alloc post => (osFreeTimer s alloc post, [])

/-- A run from `os_timer_init`. -/
abbrev timerRun (is : List TimerIn) : TimerState × List TimerOut :=
  Machine.run timerStep osTimerInit is

end Fullmac.Timer
