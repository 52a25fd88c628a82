import Fullmac.Lib.Threads
import Mathlib.Data.List.Cycle
import Mathlib.Data.List.Forall2

/-!
# Doubly linked rings in memory

A ring is a cycle of cells, no two the same, each of which holds links to the following and to the
preceding one. Since a cycle has no first cell, inserting behind a cell and taking a cell out are
proved at the front of the list (`insert_front`, `remove_front`) and hold at every place
(`insert`, `remove`). Read from one of its cells, the links visit the other cells in order, and the
links back visit them in the reverse order (`threads_next`, `threads_prev`).
-/

namespace Fullmac

variable {α : Type*} {next prev next' prev' : α → α} {h a b p x : α} {l l₁ l₂ : List α}

/-- `b` follows `a`, in both directions. -/
def Linked (next prev : α → α) (a b : α) : Prop := next a = b ∧ prev b = a

/-- The cells `c` form a ring. -/
structure Ring (next prev : α → α) (c : Cycle α) : Prop where
  nodup : c.Nodup
  linked : c.Chain (Linked next prev)

/-- Of a path only the links of all cells but the last and the links back of all cells but the first
matter. -/
theorem path_congr (hl : List.IsChain (Linked next prev) (a :: (l ++ [b])))
    (hnext : ∀ d ∈ a :: l, next' d = next d) (hprev : ∀ d ∈ l ++ [b], prev' d = prev d) :
    List.IsChain (Linked next' prev') (a :: (l ++ [b])) := by
  rw [← List.cons_append, List.isChain_cons_append_singleton_iff_forall₂,
    List.forall₂_iff_zip] at hl ⊢
  refine ⟨hl.1, fun {d e} hde => ?_⟩
  have hmem := List.of_mem_zip hde
  obtain ⟨hn, hp⟩ := hl.2 hde
  exact ⟨(hnext d hmem.1).trans hn, (hprev e hmem.2).trans hp⟩

namespace Ring

theorem coe_iff : Ring next prev (a :: l : List α) ↔
    (a :: l).Nodup ∧ List.IsChain (Linked next prev) (a :: (l ++ [a])) :=
  ⟨fun hr => ⟨Cycle.nodup_coe_iff.mp hr.nodup, (Cycle.chain_coe_cons _ a l).mp hr.linked⟩,
    fun hr => ⟨Cycle.nodup_coe_iff.mpr hr.1, (Cycle.chain_coe_cons _ a l).mpr hr.2⟩⟩

/-- A cell that is linked to itself. -/
theorem singleton (hnext : next h = h) (hprev : prev h = h) : Ring next prev ([h] : List α) :=
  coe_iff.mpr ⟨List.nodup_singleton h, List.isChain_pair.mpr ⟨hnext, hprev⟩⟩

theorem congr (hnext : ∀ d ∈ a :: l, next' d = next d) (hprev : ∀ d ∈ a :: l, prev' d = prev d)
    (hr : Ring next prev (a :: l : List α)) : Ring next' prev' (a :: l : List α) := by
  rw [coe_iff] at hr ⊢
  refine ⟨hr.1, path_congr hr.2 hnext fun d hd => hprev d ?_⟩
  simpa [or_comm] using hd

theorem next_eq (hr : Ring next prev (a :: b :: l : List α)) : next a = b :=
  (List.isChain_cons_cons.mp (coe_iff.mp hr).2).1.1

theorem prev_eq (hr : Ring next prev (a :: b :: l : List α)) : prev b = a :=
  (List.isChain_cons_cons.mp (coe_iff.mp hr).2).1.2

/-- A new cell behind the first. -/
theorem insert_front (hr : Ring next prev (p :: l : List α)) (hx : x ∉ p :: l)
    (hpx : next' p = x) (hxn : next' x = next p) (hxp : prev' x = p) (hnx : prev' (next p) = x)
    (hnext : ∀ d ∈ p :: l, d ≠ p → next' d = next d)
    (hprev : ∀ d ∈ p :: l, d ≠ next p → prev' d = prev d) :
    Ring next' prev' (p :: x :: l : List α) := by
  obtain ⟨hnodup, hlinked⟩ := coe_iff.mp hr
  have hnodup' : (p :: x :: l).Nodup := by
    rw [(List.Perm.swap x p l).nodup_iff]
    exact List.nodup_cons.mpr ⟨hx, hnodup⟩
  refine coe_iff.mpr ⟨hnodup', List.isChain_cons_cons.mpr ⟨⟨hpx, hxp⟩, ?_⟩⟩
  cases l with
  | nil =>
    have hself : next p = p := (List.isChain_pair.mp hlinked).1
    rw [hself] at hxn hnx
    exact List.isChain_pair.mpr ⟨hxn, hnx⟩
  | cons b l =>
    have hb := hr.next_eq
    rw [hb] at hxn hnx hprev
    have hpl := (List.nodup_cons.mp hnodup).1
    have hbl := (List.nodup_cons.mp (List.nodup_cons.mp hnodup).2).1
    refine List.isChain_cons_cons.mpr ⟨⟨hxn, hnx⟩, ?_⟩
    refine path_congr (List.isChain_cons_cons.mp hlinked).2 (fun d hd => ?_) fun d hd => ?_
    · exact hnext d (List.mem_cons_of_mem p hd) fun hdp => hpl (hdp ▸ hd)
    · rcases List.mem_append.mp hd with hd | hd
      · exact hprev d (by simp [hd]) fun hdb => hbl (hdb ▸ hd)
      · rw [List.mem_singleton.mp hd]
        exact hprev p List.mem_cons_self fun hpb => hpl (hpb ▸ List.mem_cons_self)

/-- The cell behind the first is taken out. -/
theorem remove_front (hr : Ring next prev (p :: x :: l : List α)) (hpn : next' p = next x)
    (hnp : prev' (next x) = p) (hnext : ∀ d ∈ p :: l, d ≠ p → next' d = next d)
    (hprev : ∀ d ∈ p :: l, d ≠ next x → prev' d = prev d) : Ring next' prev' (p :: l : List α) := by
  obtain ⟨hnodup, hlinked⟩ := coe_iff.mp hr
  have hnodup' : (p :: l).Nodup := by
    rw [(List.Perm.swap x p l).nodup_iff] at hnodup
    exact (List.nodup_cons.mp hnodup).2
  have hrest := (List.isChain_cons_cons.mp hlinked).2
  refine coe_iff.mpr ⟨hnodup', ?_⟩
  cases l with
  | nil =>
    have hback : next x = p := (List.isChain_pair.mp hrest).1
    rw [hback] at hpn hnp
    exact List.isChain_pair.mpr ⟨hpn, hnp⟩
  | cons b l =>
    have hb : next x = b := (List.isChain_cons_cons.mp hrest).1.1
    rw [hb] at hpn hnp hprev
    have hpl := (List.nodup_cons.mp hnodup').1
    have hbl := (List.nodup_cons.mp (List.nodup_cons.mp hnodup').2).1
    refine List.isChain_cons_cons.mpr ⟨⟨hpn, hnp⟩, ?_⟩
    refine path_congr (List.isChain_cons_cons.mp hrest).2 (fun d hd => ?_) fun d hd => ?_
    · exact hnext d (List.mem_cons_of_mem p hd) fun hdp => hpl (hdp ▸ hd)
    · rcases List.mem_append.mp hd with hd | hd
      · exact hprev d (by simp [hd]) fun hdb => hbl (hdb ▸ hd)
      · rw [List.mem_singleton.mp hd]
        exact hprev p List.mem_cons_self fun hpb => hpl (hpb ▸ List.mem_cons_self)

/-! ## Any place of the ring -/

theorem coe_append_cons (l₁ l₂ : List α) (a : α) :
    ((l₁ ++ a :: l₂ : List α) : Cycle α) = (a :: (l₂ ++ l₁) : List α) :=
  Cycle.coe_eq_coe.mpr List.isRotated_append

theorem mem_rotated {d : α} : d ∈ a :: (l₂ ++ l₁) ↔ d ∈ l₁ ++ a :: l₂ := by
  simp only [List.mem_cons, List.mem_append]
  tauto

/-- A new cell behind the cell `p`. -/
theorem insert (hr : Ring next prev (l₁ ++ p :: l₂ : List α)) (hx : x ∉ l₁ ++ p :: l₂)
    (hpx : next' p = x) (hxn : next' x = next p) (hxp : prev' x = p) (hnx : prev' (next p) = x)
    (hnext : ∀ d ∈ l₁ ++ p :: l₂, d ≠ p → next' d = next d)
    (hprev : ∀ d ∈ l₁ ++ p :: l₂, d ≠ next p → prev' d = prev d) :
    Ring next' prev' (l₁ ++ p :: x :: l₂ : List α) := by
  rw [coe_append_cons] at hr ⊢
  exact hr.insert_front (fun hmem => hx (mem_rotated.mp hmem)) hpx hxn hxp hnx
    (fun d hd => hnext d (mem_rotated.mp hd)) fun d hd => hprev d (mem_rotated.mp hd)

/-- The cell behind the cell `p` is taken out. -/
theorem remove (hr : Ring next prev (l₁ ++ p :: x :: l₂ : List α)) (hpn : next' p = next x)
    (hnp : prev' (next x) = p) (hnext : ∀ d ∈ l₁ ++ p :: l₂, d ≠ p → next' d = next d)
    (hprev : ∀ d ∈ l₁ ++ p :: l₂, d ≠ next x → prev' d = prev d) :
    Ring next' prev' (l₁ ++ p :: l₂ : List α) := by
  rw [coe_append_cons] at hr ⊢
  exact remove_front hr hpn hnp (fun d hd => hnext d (mem_rotated.mp hd))
    fun d hd => hprev d (mem_rotated.mp hd)

theorem prev_eq_of_append (hr : Ring next prev (l₁ ++ a :: b :: l₂ : List α)) : prev b = a := by
  rw [coe_append_cons] at hr
  exact hr.prev_eq

/-! ## The links of a cell -/

theorem next_head_mem (hr : Ring next prev (a :: l : List α)) : next a ∈ a :: l := by
  cases l with
  | nil =>
    rw [(List.isChain_pair.mp (coe_iff.mp hr).2).1]
    exact List.mem_cons_self
  | cons b l =>
    rw [hr.next_eq]
    exact List.mem_cons_of_mem a List.mem_cons_self

theorem next_mem (hr : Ring next prev (a :: l : List α)) (hp : p ∈ a :: l) : next p ∈ a :: l := by
  obtain ⟨l₁, l₂, hl⟩ := List.append_of_mem hp
  rw [hl] at hr ⊢
  rw [coe_append_cons] at hr
  exact mem_rotated.mp hr.next_head_mem

/-- The cell before the first is the last. -/
theorem exists_append_prev (hr : Ring next prev (a :: l : List α)) :
    ∃ l₁, a :: l = l₁ ++ [prev a] ∧ next (prev a) = a := by
  obtain rfl | ⟨l, z, rfl⟩ := List.eq_nil_or_concat l
  · obtain ⟨hnext, hprev⟩ := List.isChain_pair.mp (coe_iff.mp hr).2
    rw [hprev]
    exact ⟨[], rfl, hnext⟩
  · have hz : ((a :: l.concat z : List α) : Cycle α) = (z :: a :: l : List α) := by
      rw [List.concat_eq_append, ← List.cons_append, coe_append_cons, List.nil_append]
    rw [hz] at hr
    rw [hr.prev_eq]
    exact ⟨a :: l, by rw [List.concat_eq_append, List.cons_append], hr.next_eq⟩

/-! ## Reading a ring -/

/-- A ring read the other way round. -/
theorem reverse (hr : Ring next prev (h :: l : List α)) :
    Ring prev next (h :: l.reverse : List α) := by
  obtain ⟨hnodup, hlinked⟩ := coe_iff.mp hr
  have hback : (h :: (l ++ [h])).reverse = h :: (l.reverse ++ [h]) := by
    rw [List.reverse_cons, List.reverse_append, List.reverse_singleton, List.singleton_append,
      List.cons_append]
  refine coe_iff.mpr ⟨((List.reverse_perm l).cons h).nodup_iff.mpr hnodup, ?_⟩
  rw [← hback, List.isChain_reverse]
  exact hlinked.imp fun d e hde => ⟨hde.2, hde.1⟩

theorem prev_mem (hr : Ring next prev (a :: l : List α)) (hp : p ∈ a :: l) : prev p ∈ a :: l := by
  have hmem : ∀ d, d ∈ a :: l.reverse ↔ d ∈ a :: l := by simp
  exact (hmem _).mp (hr.reverse.next_mem ((hmem p).mpr hp))

theorem threads_of_path (hl : List.IsChain (Linked next prev) (a :: (l ++ [h]))) (hh : h ∉ l) :
    Threads next h (next a) l := by
  induction l generalizing a with
  | nil => exact (List.isChain_pair.mp hl).1
  | cons b l ih =>
    obtain ⟨hab, hl⟩ := List.isChain_cons_cons.mp hl
    rw [List.mem_cons, not_or] at hh
    exact ⟨hab.1, Ne.symm hh.1, ih hl hh.2⟩

/-- Read along the links from one cell, a ring shows its other cells in order. -/
theorem threads_next (hr : Ring next prev (h :: l : List α)) : Threads next h (next h) l := by
  obtain ⟨hnodup, hlinked⟩ := coe_iff.mp hr
  exact threads_of_path hlinked (List.nodup_cons.mp hnodup).1

/-- Read along the links back, it shows them in the reverse order. -/
theorem threads_prev (hr : Ring next prev (h :: l : List α)) :
    Threads prev h (prev h) l.reverse :=
  hr.reverse.threads_next

end Ring

end Fullmac
