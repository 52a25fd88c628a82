import Fullmac.Lib.Machine
import Fullmac.Lists.ListQ
import Fullmac.Lists.Llist
import Mathlib.Data.List.Perm.Subperm
import Mathlib.Data.List.Range

/-!
# The lists implement sequences

Calls on any number of heads of either kind, in any order, with new elements that no list uses: what
is taken out is what is taken from the sequences, and after each run every head shows its sequence.
The singly linked lists are queues; the doubly linked ones show their sequence along `next`, and
backwards along `prev`. Addresses are of 32 bits, as in the driver, which keeps them in `u32`s; so
no list outgrows its counter.
-/

namespace Fullmac.Lists

variable {α β : Type*}

/-- A call on a singly linked list. -/
inductive LlistOp (β α : Type*)
  | headInit (lhd : β)
  | push (lhd : β) (new : α)
  | pop (lhd : β)

/-- A call on a doubly linked list. -/
inductive ListQOp (α : Type*)
  | init (qhd : α)
  | qtail (qhd newq : α)
  | insert (qhd prev newq : α)
  | remove (qhd curt : α)
  | deq (qhd : α)

section Calls

variable [DecidableEq α] [DecidableEq β] (null : α)

/-- What the code does, with the element it answers. -/
def LlistOp.exec (m : Llists β α) : LlistOp β α → Llists β α × List α
  | .headInit lhd => (m.set lhd (llistHeadInit null) m.next, [])
  | .push lhd new =>
    let r := llistPush null (m.head lhd) m.next new
    (m.set lhd r.1 r.2, [])
  | .pop lhd =>
    let r := llistPop null (m.head lhd) m.next
    (m.set lhd r.1 r.2.1, [r.2.2])

/-- What becomes of the sequences. -/
def LlistOp.apply (s : Seqs β α) : LlistOp β α → Seqs β α × List α
  | .headInit lhd => (Function.update s lhd (some []), [])
  | .push lhd new => (s.modify lhd (· ++ [new]), [])
  | .pop lhd => (s.modify lhd List.tail, [((s lhd).getD []).headD null])

/-- The head has been initialised, and what is pushed is in no list. -/
def LlistOp.Allowed (s : Seqs β α) : LlistOp β α → Prop
  | .headInit _ => True
  | .push lhd new => (∃ xs, s lhd = some xs) ∧ Fresh null (fun _ xs => xs) s new
  | .pop lhd => ∃ xs, s lhd = some xs

/-- What the code does, with the element it answers. -/
def ListQOp.exec (m : α → ListQ α) : ListQOp α → (α → ListQ α) × List α
  | .init qhd => (listQInit m qhd, [])
  | .qtail qhd newq => (listQQtail m qhd newq, [])
  | .insert qhd prev newq => (listQInsert m qhd prev newq, [])
  | .remove qhd curt => (listQRemove m qhd curt, [])
  | .deq qhd =>
    let r := listQDeq null m qhd
    (r.1, [r.2])

/-- What becomes of the sequences. -/
def ListQOp.apply (s : Seqs α α) : ListQOp α → Seqs α α × List α
  | .init qhd => (Function.update s qhd (some []), [])
  | .qtail qhd newq => (s.modify qhd (· ++ [newq]), [])
  | .insert qhd prev newq => (s.modify qhd (insertBehind qhd prev newq), [])
  | .remove qhd curt => (s.modify qhd (·.erase curt), [])
  | .deq qhd => (s.modify qhd List.tail, [((s qhd).getD []).headD null])

/-- The head has been initialised, a new element is in no list, and `prev` or the element to remove
is in this one. -/
def ListQOp.Allowed (s : Seqs α α) : ListQOp α → Prop
  | .init qhd => qhd ≠ null ∧ ∀ h xs, s h = some xs → qhd ∉ xs
  | .qtail qhd newq => (∃ xs, s qhd = some xs) ∧ Fresh null List.cons s newq
  | .insert qhd prev newq =>
    (∃ xs, s qhd = some xs ∧ prev ∈ qhd :: xs) ∧ Fresh null List.cons s newq
  | .remove qhd curt => ∃ xs, s qhd = some xs ∧ curt ∈ xs
  | .deq qhd => ∃ xs, s qhd = some xs

variable {null}

theorem Lines.exec {m : Llists β α} {s : Seqs β α} (hs : Lines null m s) (op : LlistOp β α)
    (hop : op.Allowed null s) :
    Lines null (op.exec null m).1 (op.apply null s).1
      ∧ (op.exec null m).2 = (op.apply null s).2 := by
  cases op with
  | headInit lhd => exact ⟨Lines.init hs lhd, rfl⟩
  | push lhd new =>
    obtain ⟨⟨xs, hxs⟩, hnew⟩ := hop
    exact ⟨Lines.push hs hxs hnew, rfl⟩
  | pop lhd =>
    obtain ⟨xs, hxs⟩ := hop
    obtain ⟨hnext, hout⟩ := Lines.pop hs hxs
    refine ⟨hnext, ?_⟩
    simp only [LlistOp.exec, LlistOp.apply, hout, hxs, Option.getD_some]

end Calls

/-- An address. -/
abbrev Ptr := UInt32

theorem length_le_of_nodup {l : List Ptr} (hl : l.Nodup) : l.length ≤ 2 ^ 32 := by
  have hmap : (l.map UInt32.toNat).Nodup := hl.map fun a b hab => UInt32.toNat_inj.mp hab
  have hsub : l.map UInt32.toNat ⊆ List.range (2 ^ 32) := by
    intro n hn
    obtain ⟨a, -, rfl⟩ := List.mem_map.mp hn
    exact List.mem_range.mpr a.toNat_lt
  have hle := (hmap.subperm hsub).length_le
  rwa [List.length_map, List.length_range] at hle

theorem Holds.length_lt {null qhd : Ptr} {m : Ptr → ListQ Ptr} {xs : List Ptr}
    (hh : Holds null m qhd xs) : xs.length < 2 ^ 32 :=
  length_le_of_nodup hh.nodup

theorem Line.length_lt {null : Ptr} {next : Ptr → Ptr} {lhd : LlistHead Ptr} {xs : List Ptr}
    (hl : Line null next lhd xs) : xs.length < 2 ^ 32 :=
  length_le_of_nodup (List.nodup_cons.mpr ⟨hl.threads.null_not_mem, hl.threads.nodup⟩)

theorem Rings.exec {null : Ptr} {m : Ptr → ListQ Ptr} {s : Seqs Ptr Ptr} (hs : Rings null m s)
    (op : ListQOp Ptr) (hop : op.Allowed null s) :
    Rings null (op.exec null m).1 (op.apply null s).1
      ∧ (op.exec null m).2 = (op.apply null s).2 := by
  cases op with
  | init qhd => exact ⟨Rings.init hs hop.1 hop.2, rfl⟩
  | qtail qhd newq =>
    obtain ⟨⟨xs, hxs⟩, hnew⟩ := hop
    exact ⟨Rings.qtail hs hxs hnew, rfl⟩
  | insert qhd prev newq =>
    obtain ⟨⟨xs, hxs, hprev⟩, hnew⟩ := hop
    exact ⟨Rings.insert hs hxs hprev hnew, rfl⟩
  | remove qhd curt =>
    obtain ⟨xs, hxs, hcurt⟩ := hop
    exact ⟨Rings.remove hs hxs hcurt, rfl⟩
  | deq qhd =>
    obtain ⟨xs, hxs⟩ := hop
    obtain ⟨hnext, hout⟩ := Rings.deq hs hxs (hs.holds qhd xs hxs).length_lt
    refine ⟨hnext, ?_⟩
    simp only [ListQOp.exec, ListQOp.apply, hout, hxs, Option.getD_some]

/-! ## Whole runs -/

/-- Read along `next`, the list shows `xs`, and `llen` is its length. -/
structure LlistShows (m : Llists β Ptr) (lhd : β) (xs : List Ptr) : Prop where
  next : Threads m.next 0 (m.head lhd).list xs
  llen : (llistLLen (m.head lhd)).toNat = xs.length

/-- Read along `next` from the head and back to it, the list shows `xs`; read along `prev`, it shows
the reverse; `qlen` is its length. -/
structure ListQShows (m : Ptr → ListQ Ptr) (qhd : Ptr) (xs : List Ptr) : Prop where
  next : Threads (fun a => (m a).next) qhd (m qhd).next xs
  prev : Threads (fun a => (m a).prev) qhd (m qhd).prev xs.reverse
  qlen : (listQLen m qhd).toNat = xs.length

theorem Line.shows {m : Llists β Ptr} {lhd : β} {xs : List Ptr}
    (hl : Line 0 m.next (m.head lhd) xs) : LlistShows m lhd xs where
  next := hl.threads
  llen := by rw [llistLLen, hl.llen, UInt32.toNat_ofNat_of_lt' hl.length_lt]

theorem Holds.shows {m : Ptr → ListQ Ptr} {qhd : Ptr} {xs : List Ptr} (hh : Holds 0 m qhd xs) :
    ListQShows m qhd xs where
  next := hh.ring.threads_next
  prev := hh.ring.threads_prev
  qlen := by rw [listQLen, hh.qlen, UInt32.toNat_ofNat_of_lt' hh.length_lt]

/-- From any memory, calls that initialise their heads first answer what the sequences answer, and
leave the lists showing the sequences. -/
theorem lists_refine_sequences [DecidableEq β] :
    (∀ (m : Llists β Ptr) (ops : List (LlistOp β Ptr)),
      Machine.Meets (LlistOp.apply 0) (LlistOp.Allowed 0) (fun _ => none) ops →
      (Machine.run (LlistOp.exec 0) m ops).2
          = (Machine.run (LlistOp.apply 0) (fun _ => none) ops).2
        ∧ ∀ lhd xs, (Machine.run (LlistOp.apply 0) (fun _ => none) ops).1 lhd = some xs →
          LlistShows (Machine.run (LlistOp.exec 0) m ops).1 lhd xs)
    ∧ ∀ (m : Ptr → ListQ Ptr) (ops : List (ListQOp Ptr)),
      Machine.Meets (ListQOp.apply 0) (ListQOp.Allowed 0) (fun _ => none) ops →
      (Machine.run (ListQOp.exec 0) m ops).2
          = (Machine.run (ListQOp.apply 0) (fun _ => none) ops).2
        ∧ ∀ qhd xs, (Machine.run (ListQOp.apply 0) (fun _ => none) ops).1 qhd = some xs →
          ListQShows (Machine.run (ListQOp.exec 0) m ops).1 qhd xs := by
  constructor
  · intro m ops hops
    obtain ⟨hs, hout⟩ := Machine.run_simulates (R := Lines 0)
      (fun m s op hs hop => Lines.exec hs op hop) Family.none ops hops
    exact ⟨hout, fun lhd xs hxs => (hs.holds lhd xs hxs).shows⟩
  · intro m ops hops
    obtain ⟨hs, hout⟩ := Machine.run_simulates (R := Rings 0)
      (fun m s op hs hop => Rings.exec hs op hop) Family.none ops hops
    exact ⟨hout, fun qhd xs hxs => (hs.holds qhd xs hxs).shows⟩

/-- An element goes through a singly linked list twice; a doubly linked one loses the node behind
which it got another, and is emptied. -/
theorem lists_refine_sequences_reused :
    (Machine.run (LlistOp.exec (0 : Ptr)) ⟨fun _ : Unit => ⟨0, 0, 0⟩, fun _ => 0⟩
        [.headInit (), .push () 4, .pop (), .push () 4, .pop ()]).2 = [4, 4]
      ∧ (Machine.run (ListQOp.exec (0 : Ptr)) (fun _ => ⟨0, 0, 0⟩)
        [.init 4, .qtail 4 8, .insert 4 8 12, .remove 4 8, .deq 4, .deq 4]).2 = [12, 0] := by
  constructor
  · refine (lists_refine_sequences.1 _ _ ?_).1.trans (by decide)
    simp only [Machine.Meets, LlistOp.Allowed, LlistOp.apply, Seqs.modify]
    refine ⟨trivial, ⟨⟨[], rfl⟩, by decide, by simp⟩, ⟨[4], rfl⟩, ⟨⟨[], rfl⟩, by decide, by simp⟩,
      ⟨[4], rfl⟩, trivial⟩
  · refine (lists_refine_sequences (β := Unit).2 _ _ ?_).1.trans (by decide)
    simp only [Machine.Meets, ListQOp.Allowed, ListQOp.apply, Seqs.modify]
    refine ⟨⟨by decide, by simp⟩, ⟨⟨[], rfl⟩, by decide, fun h xs hh => ?_⟩,
      ⟨⟨[8], rfl, by decide⟩, by decide, fun h xs hh => ?_⟩, ⟨[8, 12], rfl, by decide⟩,
      ⟨[12], rfl⟩, ⟨[], rfl⟩, trivial⟩
    · obtain ⟨rfl, rfl⟩ : h = 4 ∧ xs = [] := by
        simpa [Function.update_apply, eq_comm] using hh
      decide
    · obtain ⟨rfl, rfl⟩ : h = 4 ∧ xs = [8] := by
        rw [Function.update_idem] at hh
        simpa [Function.update_apply, eq_comm] using hh
      decide

end Fullmac.Lists
