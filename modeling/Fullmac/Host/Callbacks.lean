import Fullmac.Host.Api
import Fullmac.Lib.Machine
import Mathlib.Data.Set.Insert

/-!
# Tables of callbacks

Reference: `host/core/host_apis.c`, `ssv6xxx_wifi_cb`; `host/core/host_cmd_engine_rx.c`,
`exec_host_evt_cb`; `host/core/txrx_hdl.c`, `send_to_data_handler`.

A table is an array of handlers in which `NULL` is a free slot. It stands for the set of handlers
that it contains, and a handler that is in it twice is called twice for every event.

The search for a slot stops at the first hole or at the handler, whichever comes first, for an
addition and for a removal alike. A hole in front of the handler hides it: the addition then enters
it once more, and the removal does not find it.
-/

namespace Fullmac.Host

variable {η : Type*} [DecidableEq η]

/-- A table of callbacks, with `none` for `NULL`. -/
abbrev CbTable (η : Type*) := List (Option η)

/-- `ssv6xxx_cb_action`. -/
inductive CbAction
  | add | remove
deriving DecidableEq, Repr

/-- The loop of `ssv6xxx_wifi_cb`: `nEmptyIdx`, if the loop sets it, and `bFound`. -/
def findSlot (handler : η) : CbTable η → Option (ℕ × Bool)
  | [] => none
  | none :: _ => some (0, false)
  | some h :: array =>
    if handler = h then some (0, true)
    else (findSlot handler array).map fun r => (r.1 + 1, r.2)

/-- `ssv6xxx_wifi_cb`. -/
def wifiCb (array : CbTable η) (handler : η) (action : CbAction) : ℤ × CbTable η :=
  match action, findSlot handler array with
  | .add, none => (ssvQueueFull, array)
  | .add, some (nEmptyIdx, _) => (ssvSuccess, array.set nEmptyIdx (some handler))
  | .remove, some (nEmptyIdx, true) => (ssvSuccess, array.set nEmptyIdx none)
  | .remove, _ => (ssvSuccess, array)

/-! ## Where the search ends -/

/-- A free slot stands before the handler. -/
def HoleBefore (handler : η) : CbTable η → Prop
  | [] => False
  | none :: array => some handler ∈ array
  | some _ :: array => HoleBefore handler array

instance decidableHoleBefore (handler : η) :
    ∀ array : CbTable η, Decidable (HoleBefore handler array)
  | [] => inferInstanceAs (Decidable False)
  | none :: array => inferInstanceAs (Decidable (some handler ∈ array))
  | some _ :: array => decidableHoleBefore handler array

section Search

variable {handler h : η} {pre post array : CbTable η}

omit [DecidableEq η] in
theorem holeBefore_append (hpre : none ∉ pre) :
    HoleBefore handler (pre ++ array) ↔ HoleBefore handler array := by
  induction pre with
  | nil => rfl
  | cons x pre ih =>
    cases x with
    | none => simp at hpre
    | some h' => exact ih (by simpa using hpre)

/-- Slots that hold other handlers are skipped. -/
theorem findSlot_append (hpre : none ∉ pre) (hh : some handler ∉ pre) :
    findSlot handler (pre ++ array)
      = (findSlot handler array).map fun r => (r.1 + pre.length, r.2) := by
  induction pre with
  | nil => simp
  | cons x pre ih =>
    cases x with
    | none => simp at hpre
    | some h' =>
      have hne : handler ≠ h' := by
        rintro rfl
        simp at hh
      rw [List.cons_append, findSlot, if_neg hne, ih (by simpa using hpre)
        fun hm => hh (List.mem_cons_of_mem _ hm), Option.map_map]
      congr 1

/-- The search finds nothing in a full table without the handler, and otherwise stops at the first
hole or at the handler. -/
theorem findSlot_cases (handler : η) (array : CbTable η) :
    (none ∉ array ∧ some handler ∉ array ∧ findSlot handler array = none) ∨
    (∃ pre post, array = pre ++ none :: post ∧ none ∉ pre ∧ some handler ∉ pre ∧
      findSlot handler array = some (pre.length, false)) ∨
    (∃ pre post, array = pre ++ some handler :: post ∧ none ∉ pre ∧ some handler ∉ pre ∧
      findSlot handler array = some (pre.length, true)) := by
  -- cut the table where the search ends
  have hcut : ∀ array : CbTable η, (none ∉ array ∧ some handler ∉ array) ∨
      ∃ pre x post, array = pre ++ x :: post ∧ none ∉ pre ∧ some handler ∉ pre ∧
        (x = none ∨ x = some handler) := by
    intro array
    induction array with
    | nil => simp
    | cons y array ih =>
      by_cases hy : y = none ∨ y = some handler
      · exact .inr ⟨[], y, array, rfl, by simp, by simp, hy⟩
      · rw [not_or] at hy
        rcases ih with ⟨hn, hh⟩ | ⟨pre, x, post, rfl, hn, hh, hx⟩
        · exact .inl ⟨by simp [hn, Ne.symm hy.1], by simp [hh, Ne.symm hy.2]⟩
        · exact .inr ⟨y :: pre, x, post, rfl, by simp [hn, Ne.symm hy.1],
            by simp [hh, Ne.symm hy.2], hx⟩
  rcases hcut array with ⟨hn, hh⟩ | ⟨pre, x, post, rfl, hn, hh, rfl | rfl⟩
  · have hfind : findSlot handler (array ++ []) = _ := findSlot_append hn hh
    exact .inl ⟨hn, hh, by simpa [findSlot] using hfind⟩
  · exact .inr (.inl ⟨pre, post, rfl, hn, hh, by simp [findSlot_append hn hh, findSlot]⟩)
  · exact .inr (.inr ⟨pre, post, rfl, hn, hh, by simp [findSlot_append hn hh, findSlot]⟩)

/-- What a call does: nothing but report a full table, or fill or keep the first hole, or keep or
empty the slot of the handler. -/
theorem wifiCb_cases (handler : η) (array : CbTable η) :
    (none ∉ array ∧ some handler ∉ array ∧
      wifiCb array handler .add = (ssvQueueFull, array) ∧
      wifiCb array handler .remove = (ssvSuccess, array)) ∨
    (∃ pre post, array = pre ++ none :: post ∧ none ∉ pre ∧ some handler ∉ pre ∧
      wifiCb array handler .add = (ssvSuccess, pre ++ some handler :: post) ∧
      wifiCb array handler .remove = (ssvSuccess, array)) ∨
    (∃ pre post, array = pre ++ some handler :: post ∧ none ∉ pre ∧ some handler ∉ pre ∧
      wifiCb array handler .add = (ssvSuccess, array) ∧
      wifiCb array handler .remove = (ssvSuccess, pre ++ none :: post)) := by
  rcases findSlot_cases handler array with
    ⟨hn, hh, hfind⟩ | ⟨pre, post, rfl, hn, hh, hfind⟩ | ⟨pre, post, rfl, hn, hh, hfind⟩
  · exact .inl ⟨hn, hh, by simp [wifiCb, hfind]⟩
  · exact .inr (.inl ⟨pre, post, rfl, hn, hh, by simp [wifiCb, hfind]⟩)
  · exact .inr (.inr ⟨pre, post, rfl, hn, hh, by simp [wifiCb, hfind]⟩)

end Search

/-! ## The table as a set -/

/-- One call: the table before it, its arguments, its result and the table after it. -/
structure CbCall (η : Type*) where
  before : CbTable η
  handler : η
  action : CbAction
  result : ℤ
  after : CbTable η

/-- The handlers in a table. -/
def registered (array : CbTable η) : Set η := {h | some h ∈ array}

/-- The call treats the table as a set. -/
structure CbCall.SetLike (c : CbCall η) : Prop where
  /-- No handler is in the table twice. -/
  once : ∀ h, c.after.count (some h) ≤ 1
  /-- An addition that succeeds leaves the handler in the table. -/
  added : c.action = .add → c.result = ssvSuccess → some c.handler ∈ c.after
  /-- A removal leaves the handler out of it. -/
  removed : c.action = .remove → some c.handler ∉ c.after
  /-- Other handlers stay as they are. -/
  others : ∀ h, h ≠ c.handler → (some h ∈ c.after ↔ some h ∈ c.before)
  /-- Only a full table without the handler makes an addition fail. -/
  full : c.action = .add → c.result = ssvQueueFull →
    none ∉ c.before ∧ some c.handler ∉ c.before

/-- One call of `ssv6xxx_wifi_cb` on a table. -/
def cbStep (array : CbTable η) (i : η × CbAction) : CbTable η × List (CbCall η) :=
  let r := wifiCb array i.1 i.2
  (r.2, [⟨array, i.1, i.2, r.1, r.2⟩])

section SetLike

variable {handler : η} {array : CbTable η}

/-- No handler is in the table twice. -/
def NoDup (array : CbTable η) : Prop := ∀ h, array.count (some h) ≤ 1

omit [DecidableEq η] in
theorem mem_of_holeBefore (h : HoleBefore handler array) : some handler ∈ array := by
  induction array with
  | nil => exact h.elim
  | cons x array ih =>
    cases x with
    | none => exact List.mem_cons_of_mem _ h
    | some h' => exact List.mem_cons_of_mem _ (ih h)

theorem noDup_replicate (n : ℕ) : NoDup (List.replicate n (none : Option η)) := by
  intro h
  simp [List.count_replicate]

theorem not_mem_of_noDup {pre post : CbTable η} (hdup : NoDup (pre ++ some handler :: post)) :
    some handler ∉ post := by
  have hle := hdup handler
  rw [List.count_append, List.count_cons_self] at hle
  exact List.count_eq_zero.mp (by omega)

theorem setLike_add (hdup : NoDup array) :
    CbCall.SetLike ⟨array, handler, .add, (wifiCb array handler .add).1,
        (wifiCb array handler .add).2⟩
      ↔ ¬ HoleBefore handler array := by
  rcases wifiCb_cases handler array with
    ⟨hn, hh, h, -⟩ | ⟨pre, post, rfl, hn, hh, h, -⟩ | ⟨pre, post, rfl, hn, hh, h, -⟩
  · -- full
    refine iff_of_true ?_ fun hhole => hh (mem_of_holeBefore hhole)
    rw [h]
    exact ⟨hdup, fun _ hr => by simp [ssvQueueFull, ssvSuccess] at hr, by simp, by simp,
      fun _ _ => ⟨hn, hh⟩⟩
  · -- the first hole takes the handler, which may stand behind it
    rw [holeBefore_append hn, h]
    constructor
    · intro hset hpost
      have hcount := hset.once handler
      have hpos := List.count_pos_iff.mpr hpost
      simp only [List.count_append, List.count_cons_self] at hcount
      omega
    · intro hpost
      refine ⟨fun h' => ?_, by simp, by simp, fun h' hne => by simp [hne], ?_⟩
      · have hle := hdup h'
        rcases eq_or_ne h' handler with rfl | hne
        · simp [List.count_eq_zero.mpr hh, List.count_eq_zero.mpr hpost]
        · simpa [List.count_cons, Ne.symm hne] using hle
      · simp [ssvSuccess, ssvQueueFull]
  · -- the handler is kept
    rw [holeBefore_append hn, h]
    refine iff_of_true ?_ fun hhole => not_mem_of_noDup hdup (mem_of_holeBefore hhole)
    exact ⟨hdup, by simp, by simp, by simp, by simp [ssvSuccess, ssvQueueFull]⟩

theorem setLike_remove (hdup : NoDup array) :
    CbCall.SetLike ⟨array, handler, .remove, (wifiCb array handler .remove).1,
        (wifiCb array handler .remove).2⟩
      ↔ ¬ HoleBefore handler array := by
  rcases wifiCb_cases handler array with
    ⟨hn, hh, -, h⟩ | ⟨pre, post, rfl, hn, hh, -, h⟩ | ⟨pre, post, rfl, hn, hh, -, h⟩
  · -- the handler is not in the table
    refine iff_of_true ?_ fun hhole => hh (mem_of_holeBefore hhole)
    rw [h]
    exact ⟨hdup, by simp, fun _ => hh, by simp, by simp⟩
  · -- the first hole ends the search, and the handler may stand behind it
    rw [holeBefore_append hn, h]
    constructor
    · intro hset hpost
      have habs := hset.removed rfl
      simp only [List.mem_append, List.mem_cons, not_or] at habs
      exact habs.2.2 hpost
    · intro hhole
      have hpost : some handler ∉ post := hhole
      have habs : some handler ∉ pre ++ none :: post := by
        simpa [hh] using hpost
      exact ⟨hdup, by simp, fun _ => habs, by simp, by simp⟩
  · -- the slot of the handler is emptied
    rw [holeBefore_append hn, h]
    have hpost := not_mem_of_noDup hdup
    refine iff_of_true ⟨fun h' => ?_, by simp, fun _ => by simpa [hh] using hpost,
      fun h' hne => by simp [hne], by simp⟩ fun hhole => hpost (mem_of_holeBefore hhole)
    have hle := hdup h'
    simp only [List.count_append, List.count_cons] at hle ⊢
    simp only [reduceCtorEq, beq_iff_eq, if_false]
    omega

/-- A call treats the table as a set exactly when no free slot stands before its handler. -/
theorem setLike_cbStep (i : η × CbAction) (hdup : NoDup array) :
    (∀ c ∈ (cbStep array i).2, c.SetLike) ↔ ¬ HoleBefore i.1 array := by
  obtain ⟨handler, action⟩ := i
  simp only [cbStep, List.mem_singleton, forall_eq]
  cases action with
  | add => exact setLike_add hdup
  | remove => exact setLike_remove hdup

end SetLike

/-- Along every sequence of calls from an empty table of any length, the table behaves as a set
exactly when no call is about a handler that has a free slot before it. -/
theorem forall_setLike_iff (n : ℕ) (is : List (η × CbAction)) :
    (∀ c ∈ (Machine.run cbStep (List.replicate n none) is).2, c.SetLike)
      ↔ Machine.Meets cbStep (fun array i => ¬ HoleBefore i.1 array)
          (List.replicate n none) is := by
  refine Machine.forall_output_iff_meets (I := NoDup) ?_ (fun s i hs => setLike_cbStep i hs)
    (noDup_replicate n) is
  intro array i hdup hC
  have hset := (setLike_cbStep i hdup).mpr hC
  exact (hset _ (List.mem_singleton_self _)).once

/-- Of two handlers the first is removed and the second added again: it is then in both slots. -/
theorem not_setLike_readd :
    ¬ ∀ c ∈ (Machine.run cbStep (List.replicate 2 none)
        [(1, .add), (2, .add), (1, .remove), (2, .add)]).2, c.SetLike := by
  intro h
  have hlast : (⟨[none, some 2], 2, .add, ssvSuccess, [some 2, some 2]⟩ : CbCall ℕ)
      ∈ (Machine.run cbStep (List.replicate 2 none)
          [(1, .add), (2, .add), (1, .remove), (2, .add)]).2 :=
    List.mem_of_getLast? rfl
  have honce := (h _ hlast).once 2
  simp at honce

/-! ## What the table is for

A table that contains no handler twice stands for a set: calls about handlers that no free slot
precedes are insertions and removals, and an event reaches each member once. -/

/-- What the call does to the set of handlers. -/
def CbCall.onSet (c : CbCall η) (hs : Set η) : Set η :=
  match c.action with
  | .add => if c.result = ssvSuccess then insert c.handler hs else hs
  | .remove => hs \ {c.handler}

section Registered

variable {handler : η} {array : CbTable η}

/-- A call that treats the table as a set does to the set what it says. -/
theorem registered_cbStep (i : η × CbAction) (hdup : NoDup array) (hC : ¬ HoleBefore i.1 array) :
    registered (cbStep array i).1
      = (cbStep array i).2.foldl (fun hs c => c.onSet hs) (registered array) := by
  have hset := (setLike_cbStep i hdup).mpr hC _ (List.mem_singleton_self _)
  obtain ⟨handler, action⟩ := i
  simp only [cbStep, List.foldl_cons, List.foldl_nil, CbCall.onSet]
  ext h
  rcases eq_or_ne h handler with rfl | hne
  · cases action with
    | remove => simpa [registered] using hset.removed rfl
    | add =>
      rcases wifiCb_cases h array with
        ⟨hn, hh, h, -⟩ | ⟨pre, post, rfl, hn, hh, h, -⟩ | ⟨pre, post, rfl, hn, hh, h, -⟩ <;>
        simp [registered, h, ssvSuccess, ssvQueueFull]
  · have hothers := hset.others h hne
    cases action with
    | remove => simpa [registered, hne] using hothers
    | add =>
      by_cases hr : (wifiCb array handler .add).1 = ssvSuccess <;>
        simpa [registered, hne, hr] using hothers

/-- Along calls about handlers that no free slot precedes, the table stands for the set that the
calls describe. -/
theorem registered_run (n : ℕ) (is : List (η × CbAction))
    (hC : Machine.Meets cbStep (fun array i => ¬ HoleBefore i.1 array) (List.replicate n none) is) :
    registered (Machine.run cbStep (List.replicate n none) is).1
      = (Machine.run cbStep (List.replicate n none) is).2.foldl (fun hs c => c.onSet hs) ∅ := by
  refine (Machine.run_induction_of_meets (P := fun array _ calls => NoDup array ∧
    registered array = calls.foldl (fun hs c => c.onSet hs) ∅) ?_ ?_ is hC).2
  · exact ⟨noDup_replicate n, by ext h; simp [registered]⟩
  · rintro array is calls i hhole ⟨hdup, hreg⟩
    have hset := (setLike_cbStep i hdup).mpr hhole
    exact ⟨(hset _ (List.mem_singleton_self _)).once, by
      rw [registered_cbStep i hdup hhole, List.foldl_append, hreg]⟩

end Registered

/-- `exec_host_evt_cb`: the handlers it calls, in order. -/
def execHostEvtCb (array : CbTable η) : List η := array.filterMap id

/-- An event reaches every handler of the table once. -/
theorem count_execHostEvtCb {array : CbTable η} (hdup : NoDup array) (h : η) :
    (execHostEvtCb array).count h = if some h ∈ array then 1 else 0 := by
  have hcount : (execHostEvtCb array).count h = array.count (some h) := by
    induction array with
    | nil => rfl
    | cons x array ih =>
      have htail := ih fun h' => (List.count_le_count_cons ..).trans (hdup h')
      cases x with
      | none => simpa [execHostEvtCb] using htail
      | some h' => simpa [execHostEvtCb, List.count_cons] using htail
  rw [hcount]
  split
  case isTrue hmem =>
    have hpos := List.count_pos_iff.mpr hmem
    have hle := hdup h
    omega
  case isFalse hmem => exact List.count_eq_zero.mpr hmem

/-- `send_to_data_handler`: the handlers it calls, in order, and whether it frees the frame. The
first handler that takes the frame is the last one called. -/
def sendToDataHandler (accepts : η → Bool) : CbTable η → List η × Bool
  | [] => ([], true)
  | none :: array => sendToDataHandler accepts array
  | some h :: array =>
    if accepts h then ([h], false)
    else (h :: (sendToDataHandler accepts array).1, (sendToDataHandler accepts array).2)

omit [DecidableEq η] in
/-- The frame is freed exactly when no handler of the table takes it. -/
theorem sendToDataHandler_frees (accepts : η → Bool) (array : CbTable η) :
    (sendToDataHandler accepts array).2 = true ↔ ∀ h ∈ registered array, accepts h = false := by
  induction array with
  | nil => simp [sendToDataHandler, registered]
  | cons x array ih =>
    cases x with
    | none => simpa [sendToDataHandler, registered] using ih
    | some h =>
      cases ha : accepts h
      · simpa [sendToDataHandler, registered, ha] using ih
      · simp [sendToDataHandler, registered, ha]

end Fullmac.Host
