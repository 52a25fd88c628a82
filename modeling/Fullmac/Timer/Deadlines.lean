import Fullmac.Timer.DeltaList

/-!
# When the timers expire

Reference: `host/lib/ssv_timer.c`, `_create_timer`, `_cancel_timer` and `_update_all_timer`.

The delta list stands for its deadlines: the timers with their absolute times to expiry. Inserting
a timer should put one deadline among the others, cancelling should take the deadlines of one key
out, and advancing should take the elapsed time off all of them.

Each of the three functions does that only for some lists. `_create_timer` shortens every timer
behind the new one that is long enough, where only its successor gives up time. `_cancel_timer`
gives the remaining time of a cancelled timer to every timer behind it, where only its successor
takes it over, and stops looking for the key. `_update_all_timer` drops the part of the elapsed time
that the first timer did not need.
-/

namespace Fullmac.Timer

open Deltas

variable {α : Type*}

namespace Queued

/-- The timer itself, without its remaining time. -/
def who (t : Queued α) : α × OsTimer := (t.tmr, t.os)

/-- Its remaining time as a number. -/
def delta (t : Queued α) : ℕ := t.msRemian.toNat

theorem delta_lt (t : Queued α) : t.delta < 2 ^ 32 := t.msRemian.toNat_lt

@[simp] theorem delta_setState (t : Queued α) (st : EnTmrState) : (t.setState st).delta = t.delta :=
  rfl

@[simp] theorem who_shorten (ms : UInt32) (t : Queued α) : (t.shorten ms).who = t.who := by
  unfold shorten
  split <;> rfl

theorem delta_shorten (ms : UInt32) (t : Queued α) :
    (t.shorten ms).delta = if ms.toNat ≤ t.delta then t.delta - ms.toNat else t.delta := by
  by_cases h : ms ≤ t.msRemian
  · have hle : ms.toNat ≤ t.delta := UInt32.le_iff_toNat_le.mp h
    rw [shorten, if_pos h, if_pos hle]
    exact UInt32.toNat_sub_of_le _ _ h
  · have hle : ¬ ms.toNat ≤ t.delta := fun hle => h (UInt32.le_iff_toNat_le.mpr hle)
    rw [shorten, if_neg h, if_neg hle]

@[simp] theorem who_lengthen (ms : UInt32) (t : Queued α) : (t.lengthen ms).who = t.who := rfl

theorem delta_lengthen (ms : UInt32) (t : Queued α) :
    (t.lengthen ms).delta = (t.delta + ms.toNat) % 2 ^ 32 :=
  UInt32.toNat_add _ _

end Queued

/-- The deadlines of a delta list that starts at time `b`. -/
def deadlinesFrom (b : ℕ) (l : List (Queued α)) : List ((α × OsTimer) × ℕ) :=
  stamps Queued.who Queued.delta b l

/-- The timers of a delta list with their absolute times to expiry. -/
def deadlines (l : List (Queued α)) : List ((α × OsTimer) × ℕ) := deadlinesFrom 0 l

@[simp] theorem deadlinesFrom_nil (b : ℕ) : deadlinesFrom b ([] : List (Queued α)) = [] := rfl

@[simp] theorem deadlinesFrom_cons (b : ℕ) (t : Queued α) (ts : List (Queued α)) :
    deadlinesFrom b (t :: ts) = (t.who, b + t.delta) :: deadlinesFrom (b + t.delta) ts := rfl

/-! ## Insertion -/

namespace TimerLists

/-- The timer that is to expire after `ms` gets a deadline of its own among those of the others,
which stay. -/
def Inserted (new : α × OsTimer) (ms : ℕ) (before after : List ((α × OsTimer) × ℕ)) : Prop :=
  ∃ pre post, before = pre ++ post ∧ after = pre ++ (new, ms) :: post

/-- Wherever in the list the deadline `ms` falls, the timers behind the next one are shorter than
the remaining time of the new timer at that place. -/
def ShorterBehind (ms : ℕ) (l : List (Queued α)) : Prop :=
  ∀ pre t post, l = pre ++ t :: post →
    (pre.map Queued.delta).sum < ms → ms ≤ (pre.map Queued.delta).sum + t.delta →
    ∀ u ∈ post, u.delta < ms - (pre.map Queued.delta).sum

theorem shorterBehind_cons {ms : ℕ} {t : Queued α} {ts : List (Queued α)} :
    ShorterBehind ms (t :: ts) ↔
      (0 < ms → ms ≤ t.delta → ∀ u ∈ ts, u.delta < ms) ∧ ShorterBehind (ms - t.delta) ts := by
  unfold ShorterBehind
  rw [forall_split_cons]
  refine and_congr (by simp) (forall_congr' fun pre => forall_congr' fun v =>
    forall_congr' fun post => imp_congr_right fun _ => ?_)
  simp only [List.map_cons, List.sum_cons, Nat.sub_sub]
  refine imp_congr (by omega) (imp_congr (by omega) Iff.rfl)

/-- What the walk of `_create_timer` makes of the deadlines when it stops at `t`. -/
theorem deadlinesFrom_stop {new t : Queued α} (h : new.msRemian ≤ t.msRemian)
    (ts : List (Queued α)) (b : ℕ) :
    deadlinesFrom b (new :: (t :: ts).map (Queued.shorten new.msRemian))
      = (new.who, b + new.delta) :: (t.who, b + t.delta)
        :: stamps Queued.who (fun u => (u.shorten new.msRemian).delta) (b + t.delta) ts := by
  have hle : new.delta ≤ t.delta := UInt32.le_iff_toNat_le.mp h
  have ht : (t.shorten new.msRemian).delta = t.delta - new.delta := by
    rw [Queued.delta_shorten]
    exact if_pos hle
  have hsum : b + new.delta + (t.delta - new.delta) = b + t.delta := by omega
  simp only [List.map_cons, deadlinesFrom_cons, Queued.who_shorten, ht, hsum]
  rw [deadlinesFrom, stamps_map]
  simp only [Queued.who_shorten]

/-- Taking the remaining time of the timers passed off the new timer keeps its deadline. -/
theorem delta_passed {new t : Queued α} (h : ¬ new.msRemian ≤ t.msRemian) :
    ({ new with msRemian := new.msRemian - t.msRemian } : Queued α).delta
      = new.delta - t.delta ∧ t.delta < new.delta := by
  have hlt : t.msRemian < new.msRemian := UInt32.not_le.mp h
  exact ⟨UInt32.toNat_sub_of_le _ _ (UInt32.le_of_lt hlt), UInt32.lt_iff_toNat_lt.mp hlt⟩

theorem insertTimer_inserts (new : Queued α) {l : List (Queued α)} (b : ℕ)
    (h : ShorterBehind new.delta l) :
    Inserted new.who (b + new.delta) (deadlinesFrom b l)
      (deadlinesFrom b (insertTimer new l)) := by
  induction l generalizing new b with
  | nil => exact ⟨[], [], rfl, rfl⟩
  | cons t ts ih =>
    obtain ⟨hstop, hpass⟩ := shorterBehind_cons.mp h
    rw [insertTimer]
    split
    case isTrue hle =>
      have hsame : ∀ u ∈ ts, (u.shorten new.msRemian).delta = u.delta := by
        intro u hu
        rw [Queued.delta_shorten]
        split
        case isFalse => rfl
        case isTrue hu' =>
          -- only a timer with no time left is inserted before one that is long enough
          have hzero : new.msRemian.toNat = 0 := by
            by_contra hne
            have := hstop (Nat.pos_of_ne_zero hne) (UInt32.le_iff_toNat_le.mp hle) u hu
            exact absurd hu' (Nat.not_le.mpr this)
          rw [hzero, Nat.sub_zero]
      refine ⟨[], deadlinesFrom b (t :: ts), rfl, ?_⟩
      rw [deadlinesFrom_stop hle, stamps_congr hsame]
      rfl
    case isFalse hnle =>
      -- the walk passes `t`: the same deadline, counted from a later start
      obtain ⟨hdelta, hlt⟩ := delta_passed hnle
      rw [← hdelta] at hpass
      obtain ⟨pre, post, hbefore, hafter⟩ := ih _ (b + t.delta) hpass
      have hms : b + t.delta + (new.delta - t.delta) = b + new.delta := by omega
      refine ⟨(t.who, b + t.delta) :: pre, post, ?_, ?_⟩
      · rw [deadlinesFrom_cons, hbefore, List.cons_append]
      · rw [deadlinesFrom_cons, hafter, hdelta, hms, List.cons_append]
        rfl

/-- If every deadline is still there, only timers shorter than the new one stood behind its
successor: any other was shortened and its deadline came nearer. -/
theorem shorterBehind_of_total (new : Queued α) {l : List (Queued α)} {b : ℕ}
    (h : total (deadlinesFrom b l) + (b + new.delta)
      ≤ total (deadlinesFrom b (insertTimer new l))) : ShorterBehind new.delta l := by
  induction l generalizing new b with
  | nil => simp [ShorterBehind]
  | cons t ts ih =>
    rw [shorterBehind_cons]
    rw [insertTimer] at h
    split at h
    case isTrue hle =>
      have hdelta : new.delta ≤ t.delta := UInt32.le_iff_toNat_le.mp hle
      refine ⟨fun hpos _ u hu => ?_, ?_⟩
      · rw [deadlinesFrom_stop hle] at h
        simp only [deadlinesFrom, stamps_cons, total_cons] at h
        -- the sum grew by the new deadline, so no delta behind it got smaller
        have hall : ∀ u ∈ ts, (u.shorten new.msRemian).delta = u.delta := by
          refine eq_of_total_stamps_le (f := Queued.who) (b := b + t.delta) (fun u _ => ?_)
            (by omega)
          rw [Queued.delta_shorten]
          split <;> omega
        have hsame := hall u hu
        rw [Queued.delta_shorten] at hsame
        split at hsame
        case isTrue hle' =>
          change u.delta - new.delta = u.delta at hsame
          change new.delta ≤ u.delta at hle'
          omega
        case isFalse hnle => exact Nat.not_le.mp hnle
      · intro pre v post _ hpre
        omega
    case isFalse hnle =>
      obtain ⟨hdelta, hlt⟩ := delta_passed hnle
      simp only [deadlinesFrom_cons, total_cons] at h
      rw [← hdelta]
      refine ⟨fun _ hle => absurd hle (Nat.not_le.mpr hlt), ih _ (b := b + t.delta) ?_⟩
      omega

theorem Inserted.total_eq {new : α × OsTimer} {ms : ℕ} {before after : List ((α × OsTimer) × ℕ)}
    (h : Inserted new ms before after) : total after = total before + ms := by
  obtain ⟨pre, post, rfl, rfl⟩ := h
  simp only [total_append, total_cons]
  omega

/-- **A new timer gets its deadline and moves no other exactly when only shorter ones follow its
successor.** After `_create_timer` the deadlines are the old ones with that of the new timer put
between two of them, if and only if, at the place where the timeout falls, every timer behind the
next one has less time left than the new timer has there. -/
theorem createTimer_inserted_iff (s : TimerLists α) (new : Queued α) :
    Inserted (new.setState .cntDwn).who new.delta (deadlines s.tmrHd)
        (deadlines (s.createTimer new).tmrHd) ↔
      ShorterBehind new.delta s.tmrHd := by
  constructor
  · intro h
    refine shorterBehind_of_total (new.setState .cntDwn) (b := 0) ?_
    have htotal := h.total_eq
    simp only [deadlines, createTimer] at htotal
    rw [htotal, Queued.delta_setState]
    omega
  · intro h
    have hins := insertTimer_inserts (new.setState .cntDwn) 0 h
    rwa [Nat.zero_add] at hins

/-- Two timers with ten units between them. -/
def twoTens : TimerLists ℕ where
  tmrHd := [⟨0, ⟨⟨1, 0, 0⟩, true, .cntDwn, 0⟩, 10⟩, ⟨1, ⟨⟨1, 1, 0⟩, true, .cntDwn, 1⟩, 10⟩]
  freeTmrHd := []
  expiredTmrHd := []

/-- A timer of five units put before them brings the second from 20 to 15. -/
theorem createTimer_moves_second :
    ¬ Inserted ((⟨2, ⟨⟨1, 2, 0⟩, true, .free, 2⟩, 5⟩ : Queued ℕ).setState .cntDwn).who 5
      (deadlines twoTens.tmrHd)
      (deadlines (twoTens.createTimer ⟨2, ⟨⟨1, 2, 0⟩, true, .free, 2⟩, 5⟩).tmrHd) := by
  intro h
  have htotal := h.total_eq
  revert htotal
  decide

/-! ## Cancelling -/

/-- Every timer of the key is gone and freed and the others keep their deadlines; the timers of the
key that have expired are marked. -/
structure Cancelled (key : TimerKey) (before after : TimerLists α) : Prop where
  gone : ∀ t ∈ after.tmrHd, t.os.key ≠ key
  freed : after.freeTmrHd
    = before.freeTmrHd ++ (before.tmrHd.filter (fun t => t.os.key = key)).map Queued.freed
  kept : deadlines after.tmrHd = (deadlines before.tmrHd).filter (fun e => e.1.2.key ≠ key)
  marked : ∀ t ∈ after.expiredTmrHd, t.os.key = key → t.os.enState = .cancel
  others : after.expiredTmrHd.filter (fun t => t.os.key ≠ key)
    = before.expiredTmrHd.filter (fun t => t.os.key ≠ key)
  places : after.expiredTmrHd.map Queued.tmr = before.expiredTmrHd.map Queued.tmr

/-- Behind the first timer of the key with time left there is at most one timer, of another key, and
their remaining times add up to a `u32`. -/
def OneBehind (key : TimerKey) (l : List (Queued α)) : Prop :=
  ∀ pre t post, l = pre ++ t :: post → t.os.key = key → 0 < t.delta →
    (∀ u ∈ pre, u.os.key = key → u.delta = 0) →
    post.length ≤ 1 ∧ ∀ u ∈ post, u.os.key ≠ key ∧ u.delta + t.delta < 2 ^ 32

theorem oneBehind_cons {key : TimerKey} {t : Queued α} {ts : List (Queued α)} :
    OneBehind key (t :: ts) ↔
      (t.os.key = key → 0 < t.delta →
          ts.length ≤ 1 ∧ ∀ u ∈ ts, u.os.key ≠ key ∧ u.delta + t.delta < 2 ^ 32) ∧
        ((t.os.key = key → t.delta = 0) → OneBehind key ts) := by
  unfold OneBehind
  rw [forall_split_cons]
  refine and_congr (by simp) ⟨fun h ht pre v post hl hkey hpos hpre => ?_,
    fun h pre v post hl hkey hpos hpre => ?_⟩
  · exact h pre v post hl hkey hpos (List.forall_mem_cons.mpr ⟨ht, hpre⟩)
  · obtain ⟨ht, hpre'⟩ := List.forall_mem_cons.mp hpre
    exact h ht pre v post hl hkey hpos hpre'

/-- What the walk of `_cancel_timer` should do to a list that starts at `b`: `r` is what stays and
what is freed. -/
structure TakenOut (key : TimerKey) (b : ℕ) (l : List (Queued α))
    (r : List (Queued α) × List (Queued α)) : Prop where
  gone : ∀ t ∈ r.1, t.os.key ≠ key
  freed : r.2 = (l.filter (fun t => t.os.key = key)).map Queued.freed
  kept : deadlinesFrom b r.1 = (deadlinesFrom b l).filter (fun e => e.1.2.key ≠ key)

/-- Giving the remaining time of a cancelled timer to all timers behind it is right when there is at
most one of them and its time does not overflow. -/
theorem deadlinesFrom_lengthen_iff {ms : UInt32} (hms : 0 < ms.toNat) (b : ℕ)
    (ts : List (Queued α)) :
    deadlinesFrom b (ts.map (Queued.lengthen ms)) = deadlinesFrom (b + ms.toNat) ts ↔
      ts.length ≤ 1 ∧ ∀ u ∈ ts, u.delta + ms.toNat < 2 ^ 32 := by
  have hlt : ms.toNat < 2 ^ 32 := ms.toNat_lt
  cases ts with
  | nil => simp
  | cons u ts =>
    have hu := u.delta_lt
    have hfirst : b + (u.delta + ms.toNat) % 2 ^ 32 = b + ms.toNat + u.delta ↔
        u.delta + ms.toNat < 2 ^ 32 := by omega
    -- with two timers behind it both are moved, and the second comes too late
    cases ts with
    | nil => simpa [Queued.delta_lengthen] using hfirst
    | cons v ts =>
      have hv := v.delta_lt
      simp only [List.map_cons, deadlinesFrom_cons, Queued.delta_lengthen, List.length_cons,
        List.cons.injEq, Prod.mk.injEq]
      constructor
      · rintro ⟨⟨-, hu'⟩, ⟨-, hv'⟩, -⟩
        omega
      · rintro ⟨hlen, -⟩
        omega

theorem deadlinesFrom_filter_of_forall {key : TimerKey} {b : ℕ} {l : List (Queued α)}
    (h : ∀ t ∈ l, t.os.key ≠ key) :
    (deadlinesFrom b l).filter (fun e => e.1.2.key ≠ key) = deadlinesFrom b l := by
  rw [List.filter_eq_self]
  intro e he
  obtain ⟨t, ht, hwho⟩ := exists_of_mem_stamps he
  rw [← hwho]
  exact decide_eq_true (h t ht)

/-- What the walk does at a timer of the key with time left, where it ends. -/
theorem takenOut_last_iff {key : TimerKey} {b : ℕ} {t : Queued α} {ts : List (Queued α)}
    (ht : t.os.key = key) (hpos : 0 < t.delta) :
    TakenOut key b (t :: ts) (ts.map (Queued.lengthen t.msRemian), [t.freed]) ↔
      ts.length ≤ 1 ∧ ∀ u ∈ ts, u.os.key ≠ key ∧ u.delta + t.delta < 2 ^ 32 := by
  have hkept : (deadlinesFrom b (t :: ts)).filter (fun e => e.1.2.key ≠ key)
      = (deadlinesFrom (b + t.delta) ts).filter (fun e => e.1.2.key ≠ key) := by
    simp [Queued.who, ht]
  constructor
  · rintro ⟨gone, -, kept⟩
    have hgone : ∀ u ∈ ts, u.os.key ≠ key := fun u hu =>
      gone (u.lengthen t.msRemian) (List.mem_map_of_mem hu)
    rw [hkept, deadlinesFrom_filter_of_forall hgone] at kept
    obtain ⟨hlen, hsum⟩ := (deadlinesFrom_lengthen_iff hpos b ts).mp kept
    exact ⟨hlen, fun u hu => ⟨hgone u hu, hsum u hu⟩⟩
  · rintro ⟨hlen, hts⟩
    have hgone : ∀ u ∈ ts, u.os.key ≠ key := fun u hu => (hts u hu).1
    refine ⟨?_, ?_, ?_⟩
    · intro u hu
      obtain ⟨v, hv, rfl⟩ := List.mem_map.mp hu
      exact hgone v hv
    · have hnone : ts.filter (fun u => u.os.key = key) = [] := by
        simpa [List.filter_eq_nil_iff] using hgone
      simp [ht, hnone]
    · rw [hkept, deadlinesFrom_filter_of_forall hgone]
      exact (deadlinesFrom_lengthen_iff hpos b ts).mpr ⟨hlen, fun u hu => (hts u hu).2⟩

theorem takenOut_cancelWalk_iff (key : TimerKey) (b : ℕ) (l : List (Queued α)) :
    TakenOut key b l (cancelWalk key l) ↔ OneBehind key l := by
  induction l generalizing b with
  | nil => exact ⟨fun _ => by simp [OneBehind], fun _ => ⟨by simp [cancelWalk], rfl, rfl⟩⟩
  | cons t ts ih =>
    rw [oneBehind_cons, cancelWalk]
    by_cases ht : t.os.key = key
    · rw [if_pos ht]
      by_cases hpos : 0 < t.delta
      · have hms : 0 < t.msRemian := UInt32.lt_iff_toNat_lt.mpr hpos
        rw [if_pos hms, takenOut_last_iff ht hpos]
        exact ⟨fun h => ⟨fun _ _ => h, fun hzero => absurd (hzero ht) (Nat.ne_of_gt hpos)⟩,
          fun h => h.1 ht hpos⟩
      · -- a timer of the key with no time left is taken out and the walk goes on
        have hms : ¬ 0 < t.msRemian := fun h => hpos (UInt32.lt_iff_toNat_lt.mp h)
        have hzero : t.delta = 0 := Nat.eq_zero_of_not_pos hpos
        rw [if_neg hms]
        have hstep : TakenOut key b (t :: ts)
            ((cancelWalk key ts).1, t.freed :: (cancelWalk key ts).2) ↔
              TakenOut key b ts (cancelWalk key ts) := by
          constructor <;> rintro ⟨gone, freed, kept⟩
          · exact ⟨gone, by simpa [ht] using freed, by simpa [Queued.who, ht, hzero] using kept⟩
          · exact ⟨gone, by simpa [ht] using freed, by simpa [Queued.who, ht, hzero] using kept⟩
        rw [hstep, ih]
        exact ⟨fun h => ⟨fun _ h' => absurd h' hpos, fun _ => h⟩, fun h => h.2 fun _ => hzero⟩
    · rw [if_neg ht]
      have hstep : TakenOut key b (t :: ts) (t :: (cancelWalk key ts).1, (cancelWalk key ts).2) ↔
          TakenOut key (b + t.delta) ts (cancelWalk key ts) := by
        constructor <;> rintro ⟨gone, freed, kept⟩
        · exact ⟨fun u hu => gone u (List.mem_cons_of_mem t hu), by simpa [ht] using freed,
            by simpa [Queued.who, ht] using kept⟩
        · exact ⟨List.forall_mem_cons.mpr ⟨ht, gone⟩, by simpa [ht] using freed,
            by simpa [Queued.who, ht] using kept⟩
      rw [hstep, ih]
      exact ⟨fun h => ⟨fun h' => absurd h' ht, fun _ => h⟩, fun h => h.2 fun h' => absurd h' ht⟩

/-- Marking the expired timers of a key leaves the others as they are. -/
theorem filter_marked (key : TimerKey) (l : List (Queued α)) :
    (l.map (fun t => if t.os.key = key then t.setState .cancel else t)).filter
        (fun t => t.os.key ≠ key)
      = l.filter (fun t => t.os.key ≠ key) := by
  induction l with
  | nil => rfl
  | cons t l ih =>
    by_cases ht : t.os.key = key
    · have hmark : (t.setState .cancel).os.key = key := ht
      simpa [ht, hmark] using ih
    · simpa [ht] using ih

/-- **Cancelling is right exactly when at most one other timer follows the one cancelled.** After
`_cancel_timer` no timer of the key is pending, all of them are on the free list, the expired ones
are marked and every other timer keeps its place, its state and its deadline, if and only if behind
the first timer of the key with time left, if there is one, there is at most one timer, of another
key, whose time does not overflow. -/
theorem cancelTimer_cancelled_iff (s : TimerLists α) (key : TimerKey) :
    Cancelled key s (s.cancelTimer key) ↔ OneBehind key s.tmrHd := by
  rw [← takenOut_cancelWalk_iff key 0]
  constructor
  · rintro ⟨gone, freed, kept, -, -, -⟩
    exact ⟨gone, List.append_cancel_left freed, kept⟩
  · rintro ⟨gone, freed, kept⟩
    refine ⟨gone, congrArg (s.freeTmrHd ++ ·) freed, kept, ?_, ?_, ?_⟩
    · intro t ht hkey
      obtain ⟨u, -, rfl⟩ := List.mem_map.mp ht
      by_cases hu : u.os.key = key
      · rw [if_pos hu]
        rfl
      · rw [if_neg hu] at hkey
        exact absurd hkey hu
    · exact filter_marked key s.expiredTmrHd
    · simp only [cancelTimer, List.map_map]
      refine List.map_congr_left fun t _ => ?_
      simp only [Function.comp_apply]
      split <;> rfl

/-- Three timers of ten units, the first two of one key. -/
def twins : TimerLists ℕ where
  tmrHd := [⟨0, ⟨⟨1, 0, 0⟩, true, .cntDwn, 0⟩, 10⟩, ⟨1, ⟨⟨1, 0, 0⟩, true, .cntDwn, 1⟩, 10⟩,
    ⟨2, ⟨⟨1, 1, 0⟩, true, .cntDwn, 2⟩, 10⟩]
  freeTmrHd := []
  expiredTmrHd := []

/-- The second of the twins is still pending after both were cancelled, and the timer behind them is
due after 40 units instead of 30. -/
theorem cancelTimer_keeps_twin :
    ¬ Cancelled ⟨1, 0, 0⟩ twins (twins.cancelTimer ⟨1, 0, 0⟩) := by
  intro h
  have hgone := h.gone
  revert hgone
  decide

end TimerLists

end Fullmac.Timer
