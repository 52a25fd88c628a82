import Fullmac.Timer.Slots
import Fullmac.Lib.Deltas

/-!
# The timer lists as lists of timers

Reference: `host/lib/ssv_timer.c`, `_create_timer`, `_update_all_timer` and `_cancel_timer`.

The machine of `Fullmac.Timer.Model` keeps the remaining times apart from the lists and interrupts
`_update_all_timer` wherever it gives up the mutex. Here the three functions are functions of whole
lists: an element is a `struct os_timer` with the place it lies at, of any type of places, and the
outcome of each `msg_evt_alloc` is read off a pattern, one value a call.

The times are the `u32` of the source. All their subtractions are guarded; the addition of
`_cancel_timer` is not.
-/

namespace Fullmac.Timer

variable {α : Type*}

/-- An element of a timer list: where the `struct os_timer` lies, the struct, and its remaining
time. -/
structure Queued (α : Type*) where
  tmr : α
  os : OsTimer
  msRemian : UInt32
deriving DecidableEq, Repr

namespace Queued

def setState (t : Queued α) (st : EnTmrState) : Queued α :=
  { t with os := { t.os with enState := st } }

/-- `_cancel_timer` clears the handler of a timer it frees. -/
def freed (t : Queued α) : Queued α := { t with os := t.os.freed }

/-- Give up `ms` to a timer that was inserted before this one. -/
def shorten (ms : UInt32) (t : Queued α) : Queued α :=
  if ms ≤ t.msRemian then { t with msRemian := t.msRemian - ms } else t

/-- Take over the remaining time of a cancelled timer. -/
def lengthen (ms : UInt32) (t : Queued α) : Queued α := { t with msRemian := t.msRemian + ms }

end Queued

/-- `tmr_hd`, `free_tmr_hd` and `expired_tmr_hd`. -/
structure TimerLists (α : Type*) where
  tmrHd : List (Queued α)
  freeTmrHd : List (Queued α)
  expiredTmrHd : List (Queued α)
deriving DecidableEq, Repr

namespace TimerLists

/-! ## `_create_timer` and `_cancel_timer` -/

/-- The walk of `_create_timer`. -/
def insertTimer (new : Queued α) : List (Queued α) → List (Queued α)
  | [] => [new]
  | t :: ts =>
    -- the loop after the insertion goes over all timers behind the new one, not the next alone
    if new.msRemian ≤ t.msRemian then new :: (t :: ts).map (Queued.shorten new.msRemian)
    else t :: insertTimer { new with msRemian := new.msRemian - t.msRemian } ts

/-- `_create_timer`. -/
def createTimer (s : TimerLists α) (new : Queued α) : TimerLists α :=
  { s with tmrHd := insertTimer (new.setState .cntDwn) s.tmrHd }

/-- The walk of `_cancel_timer`: what stays on `tmr_hd` and what goes to `free_tmr_hd`. Its inner
loop moves the cursor of the walk to the end of the list. -/
def cancelWalk (key : TimerKey) : List (Queued α) → List (Queued α) × List (Queued α)
  | [] => ([], [])
  | t :: ts =>
    if t.os.key = key then
      -- re-adding the time ends the walk: what is behind is not compared with the key
      if 0 < t.msRemian then (ts.map (Queued.lengthen t.msRemian), [t.freed])
      else
        let r := cancelWalk key ts
        (r.1, t.freed :: r.2)
    else
      let r := cancelWalk key ts
      (t :: r.1, r.2)

/-- `_cancel_timer`. -/
def cancelTimer (s : TimerLists α) (key : TimerKey) : TimerLists α :=
  let r := cancelWalk key s.tmrHd
  { tmrHd := r.1
    freeTmrHd := s.freeTmrHd ++ r.2
    expiredTmrHd :=
      s.expiredTmrHd.map (fun t => if t.os.key = key then t.setState .cancel else t) }

end TimerLists

/-! ## `_update_all_timer` -/

/-- The local `evt_retry`, a `u32`, with the number of calls of `msg_evt_alloc` and of
`OS_TickDelay` so far. -/
structure Tries where
  evtRetry : ℕ
  allocs : ℕ
  delays : ℕ
deriving DecidableEq, Repr

/-- `EVT_AGN`: allocate an event, with a delay after each failure while `evt_retry--` is not zero. A
failure that finds it at zero gives up, and leaves it at its largest value. -/
def allocEvt (alloc : ℕ → Bool) : (evtRetry allocs delays : ℕ) → Bool × Tries
  | 0, k, d => if alloc k then (true, ⟨0, k + 1, d⟩) else (false, ⟨2 ^ 32 - 1, k + 1, d⟩)
  | r + 1, k, d => if alloc k then (true, ⟨r + 1, k + 1, d⟩) else allocEvt alloc r (k + 1) (d + 1)

/-- The variables of a call of `_update_all_timer`. An event is what it calls the handler with and
the timer it belongs to. -/
structure Sweep (α : Type*) where
  lists : TimerLists α
  tries : Tries
  posted : List (TimerKey × α)
deriving DecidableEq, Repr

namespace Sweep

/-- Put the timer on `free_tmr_hd`. -/
def free (w : Sweep α) (t : Queued α) : Sweep α :=
  { w with lists := { w.lists with
      freeTmrHd := w.lists.freeTmrHd ++ [t.setState .free] } }

/-- Put the timer on `expired_tmr_hd` and post its event. -/
def post (w : Sweep α) (t : Queued α) : Sweep α :=
  { w with
    lists := { w.lists with
      expiredTmrHd := w.lists.expiredTmrHd ++ [t.setState .tickPost] }
    posted := w.posted ++ [(t.os.key, t.tmr)] }

/-- What the loop does with a timer it has taken off `tmr_hd`. -/
def expireOne (alloc : ℕ → Bool) (w : Sweep α) (t : Queued α) : Sweep α :=
  if t.os.key.handler = 0 then w.free t
  else
    let r := allocEvt alloc w.tries.evtRetry w.tries.allocs w.tries.delays
    let w' := { w with tries := r.2 }
    -- an event with no mailbox to go to is given back
    if r.1 ∧ t.os.infombx then w'.post t else w'.free t

/-- The rest of the loop, from its condition on: `l` is `tmr_hd`. -/
def expireLoop (alloc : ℕ → Bool) : List (Queued α) → Sweep α → Sweep α
  | [], w => { w with lists := { w.lists with tmrHd := [] } }
  | t :: ts, w =>
    if t.msRemian = 0 then expireLoop alloc ts (w.expireOne alloc t)
    else { w with lists := { w.lists with tmrHd := t :: ts } }

end Sweep

namespace TimerLists

/-- The beginning of `_update_all_timer`. -/
def sweep (s : TimerLists α) : Sweep α := ⟨s, ⟨30, 0, 0⟩, []⟩

/-- `_update_all_timer`. -/
def updateAllTimer (alloc : ℕ → Bool) (xElapsed : UInt32) (s : TimerLists α) : Sweep α :=
  match s.tmrHd with
  | [] => s.sweep
  | t :: ts =>
    if xElapsed < t.msRemian then
      { s with tmrHd := { t with msRemian := t.msRemian - xElapsed } :: ts }.sweep
    -- what is left of `xElapsed` is charged to no other timer
    else s.sweep.expireOne alloc t |>.expireLoop alloc ts

end TimerLists

end Fullmac.Timer
