import Fullmac.Lib.Threads
import Fullmac.Lists.Sequences

/-!
# The singly linked lists

Reference: `host/lib/ssv_lib.c`, functions `llist_head_init`, `llist_pop`, `llist_push`,
`llist_l_len`; `host/include/priv/ssv_lib.h`, `ssv_llist`, `ssv_llist_head`.

A head points to the first and to the last element. `llist_pop` does not touch `last`, so that after
the only element is taken out `last` still points to it. `Line` asks something of `last` only where
there are elements, and `llist_push` looks at it only there.
-/

namespace Fullmac.Lists

variable {α β : Type*}

/-- `struct ssv_llist_head` -/
structure LlistHead (α : Type*) where
  list : α
  last : α
  llen : UInt32

variable [DecidableEq α]

def llistHeadInit (null : α) : LlistHead α := { last := null, list := null, llen := 0 }

/-- The head and the links afterwards, and the element taken out, or `null`. -/
def llistPop (null : α) (lhd : LlistHead α) (next : α → α) : LlistHead α × (α → α) × α :=
  let elm := lhd.list
  if elm ≠ null then
    let lhd := { lhd with list := next elm }
    let next := Function.update next elm null
    let lhd := { lhd with llen := lhd.llen - 1 }
    (lhd, next, elm)
  else (lhd, next, null)

/-- The head and the links afterwards. -/
def llistPush (null : α) (lhd : LlistHead α) (next : α → α) (new : α) : LlistHead α × (α → α) :=
  let (lhd, next) :=
    if lhd.list = null then ({ lhd with list := new }, next)
    else (lhd, Function.update next lhd.last new)
  let next := Function.update next new null
  let lhd := { lhd with last := new }
  ({ lhd with llen := lhd.llen + 1 }, next)

def llistLLen (lhd : LlistHead α) : UInt32 := lhd.llen

theorem llistPop_of_ne {null : α} {lhd : LlistHead α} (h : lhd.list ≠ null) (next : α → α) :
    llistPop null lhd next = ({ lhd with list := next lhd.list, llen := lhd.llen - 1 },
      Function.update next lhd.list null, lhd.list) := by
  rw [llistPop, if_pos h]

theorem llistPush_of_eq {null : α} {lhd : LlistHead α} (h : lhd.list = null) (next : α → α)
    (new : α) :
    llistPush null lhd next new
      = (⟨new, new, lhd.llen + 1⟩, Function.update next new null) := by
  rw [llistPush, if_pos h]

theorem llistPush_of_ne {null : α} {lhd : LlistHead α} (h : lhd.list ≠ null) (next : α → α)
    (new : α) :
    llistPush null lhd next new = ({ lhd with last := new, llen := lhd.llen + 1 },
      Function.update (Function.update next lhd.last new) new null) := by
  rw [llistPush, if_neg h]

/-! ## Heads and links that hold a family of sequences -/

/-- The heads, and the link of every element. -/
structure Llists (β α : Type*) where
  head : β → LlistHead α
  next : α → α

variable {null x : α} {next next' : α → α} {lhd : LlistHead α} {m : Llists β α}
  {s : Seqs β α} {b : β} {xs : List α}

/-- The elements `xs` are threaded from the head, which points to the last of them, if there is one,
and counts them. -/
structure Line (null : α) (next : α → α) (lhd : LlistHead α) (xs : List α) : Prop where
  threads : Threads next null lhd.list xs
  last : ∀ ys z, xs = ys ++ [z] → lhd.last = z
  llen : lhd.llen = UInt32.ofNat xs.length

/-- Every head holds its sequence, and no element is in two lists. -/
abbrev Lines (null : α) (m : Llists β α) (s : Seqs β α) : Prop :=
  Family (fun b => Line null m.next (m.head b)) (fun _ xs => xs) s

namespace Line

omit [DecidableEq α] in
theorem congr (hnext : ∀ a ∈ xs, next' a = next a) (hl : Line null next lhd xs) :
    Line null next' lhd xs where
  threads := hl.threads.congr hnext
  last := hl.last
  llen := hl.llen

omit [DecidableEq α] in
theorem init (null : α) (next : α → α) : Line null next (llistHeadInit null) [] where
  threads := rfl
  last ys z h := absurd (congrArg List.length h) (by simp)
  llen := rfl

theorem push (hl : Line null next lhd xs) (hx : x ∉ xs) (hne : x ≠ null) :
    Line null (llistPush null lhd next x).2 (llistPush null lhd next x).1 (xs ++ [x]) := by
  have hlast : ∀ ys z, xs ++ [x] = ys ++ [z] → x = z := fun ys z h =>
    List.singleton_inj.mp (List.append_inj' h rfl).2
  have hllen : lhd.llen + 1 = UInt32.ofNat (xs ++ [x]).length := by
    rw [hl.llen, List.length_append, List.length_singleton, UInt32.ofNat_add]
    rfl
  obtain rfl | ⟨ys, z, rfl⟩ := List.eq_nil_or_concat xs
  · rw [llistPush_of_eq hl.threads]
    exact ⟨⟨rfl, hne, by simp⟩, hlast, hllen⟩
  · rw [List.concat_eq_append] at hl hx hlast hllen ⊢
    have hz : lhd.last = z := hl.last ys z rfl
    have hzx : z ≠ x := fun hzx => hx (by simp [hzx])
    have hzys : z ∉ ys := fun hz =>
      (List.nodup_append'.mp hl.threads.nodup).2.2 hz List.mem_cons_self
    have hhead : lhd.list ≠ null := fun hnull => by
      have hnil := hl.threads
      rw [hnull] at hnil
      exact List.append_ne_nil_of_right_ne_nil ys (List.cons_ne_nil z []) hnil.eq_nil
    rw [llistPush_of_ne hhead, hz]
    refine ⟨hl.threads.append hne ?_ (by simp) fun a ha => ?_, hlast, hllen⟩
    · simp [hzx]
    · have hax : a ≠ x := fun hax => hx (List.mem_append_left [z] (hax ▸ ha))
      have haz : a ≠ z := fun haz => hzys (haz ▸ ha)
      simp [hax, haz]

/-- Nothing is taken out of an empty list. -/
theorem pop_nil (hl : Line null next lhd []) : llistPop null lhd next = (lhd, next, null) := by
  have hnull : lhd.list = null := hl.threads
  rw [llistPop, if_neg (not_not.mpr hnull)]

theorem pop_cons (hl : Line null next lhd (x :: xs)) :
    Line null (llistPop null lhd next).2.1 (llistPop null lhd next).1 xs
      ∧ (llistPop null lhd next).2.2 = x := by
  obtain ⟨hx, hne, hxs⟩ := hl.threads
  have hnodup := List.nodup_cons.mp hl.threads.nodup
  rw [llistPop_of_ne (hx ▸ hne), hx]
  refine ⟨⟨hxs.congr fun a ha => ?_, fun ys z h => ?_, ?_⟩, rfl⟩
  · have hax : a ≠ x := fun hax => hnodup.1 (hax ▸ ha)
    exact Function.update_of_ne hax null next
  · exact hl.last (x :: ys) z (by rw [h, List.cons_append])
  · simp [hl.llen]

/-- Pushing writes to the link of the last element and to that of the new one. -/
theorem push_of_ne {a : α} (hl : Line null next lhd xs) (hxs : a ∉ xs) (hx : a ≠ x) :
    (llistPush null lhd next x).2 a = next a := by
  obtain rfl | ⟨ys, z, rfl⟩ := List.eq_nil_or_concat xs
  · rw [llistPush_of_eq hl.threads]
    simp [hx]
  · rw [List.concat_eq_append] at hl hxs
    have hz : a ≠ lhd.last := fun haz => hxs (by simp [haz, hl.last ys z rfl])
    by_cases hnull : lhd.list = null
    · rw [llistPush_of_eq hnull]
      simp [hx]
    · rw [llistPush_of_ne hnull]
      simp [hx, hz]

/-- Popping writes to the link of the first element. -/
theorem pop_of_ne {a : α} (hl : Line null next lhd xs) (hxs : a ∉ xs) :
    (llistPop null lhd next).2.1 a = next a := by
  cases xs with
  | nil => rw [hl.pop_nil]
  | cons x xs =>
    obtain ⟨hx, hne, -⟩ := hl.threads
    have hax : a ≠ x := fun hax => hxs (hax ▸ List.mem_cons_self)
    rw [llistPop_of_ne (hx ▸ hne), hx]
    simp [hax]

end Line

/-! ## One list of several -/

variable [DecidableEq β]

/-- A call for one head. -/
def Llists.set (m : Llists β α) (b : β) (lhd : LlistHead α) (next : α → α) : Llists β α :=
  { head := Function.update m.head b lhd, next := next }

namespace Lines

omit [DecidableEq α] in
theorem init (hs : Lines null m s) (b : β) :
    Lines null (m.set b (llistHeadInit null) m.next) (Function.update s b (some [])) := by
  refine Family.update hs ?_ (fun _ _ _ _ _ _ ha => nomatch ha) fun b' ys hne _ hline => ?_
  · simpa [Llists.set] using Line.init null m.next
  · simpa [Llists.set, hne] using hline

theorem push (hs : Lines null m s) (hb : s b = some xs)
    (hx : Fresh null (fun _ xs => xs) s x) :
    Lines null
      (m.set b (llistPush null (m.head b) m.next x).1 (llistPush null (m.head b) m.next x).2)
      (s.modify b (· ++ [x])) := by
  have hold := hs.holds b xs hb
  rw [Seqs.modify_eq hb]
  refine Family.modify hs null hb ?_ (fun a ha => ?_) fun b' ys hne hother hline => ?_
  · simpa [Llists.set] using hold.push (hx.not_mem b xs hb) hx.ne_null
  · rcases List.mem_append.mp ha with ha | ha
    · exact .inl ha
    · exact .inr (List.mem_singleton.mp ha ▸ hx)
  · have hnext : ∀ a ∈ ys, (llistPush null (m.head b) m.next x).2 a = m.next a := fun a ha => by
      obtain ⟨hxs, hfresh⟩ := hother a ha
      exact hold.push_of_ne hxs fun hax => hfresh (hax ▸ hx)
    simpa [Llists.set, hne] using hline.congr hnext

/-- The first element is taken out and answered, `null` where there is none. -/
theorem pop (hs : Lines null m s) (hb : s b = some xs) :
    Lines null
        (m.set b (llistPop null (m.head b) m.next).1 (llistPop null (m.head b) m.next).2.1)
        (s.modify b List.tail)
      ∧ (llistPop null (m.head b) m.next).2.2 = xs.headD null := by
  have hold := hs.holds b xs hb
  rw [Seqs.modify_eq hb]
  have hnew : Line null (llistPop null (m.head b) m.next).2.1
      (llistPop null (m.head b) m.next).1 xs.tail
      ∧ (llistPop null (m.head b) m.next).2.2 = xs.headD null := by
    cases xs with
    | nil =>
      rw [hold.pop_nil]
      exact ⟨hold, rfl⟩
    | cons x xs => exact hold.pop_cons
  refine ⟨Family.modify hs null hb ?_ (fun a ha => .inl (List.mem_of_mem_tail ha))
    fun b' ys hne hother hline => ?_, hnew.2⟩
  · simpa [Llists.set] using hnew.1
  · have hnext : ∀ a ∈ ys, (llistPop null (m.head b) m.next).2.1 a = m.next a := fun a ha =>
      hold.pop_of_ne (hother a ha).1
    simpa [Llists.set, hne] using hline.congr hnext

end Lines

end Fullmac.Lists
