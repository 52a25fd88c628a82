import Fullmac.Lib.Rings
import Fullmac.Lists.Sequences

/-!
# The doubly linked lists

Reference: `host/lib/ssv_lib.c`, functions `list_q_init`, `list_q_qtail`, `list_q_insert`,
`list_q_remove`, `list_q_deq`, `list_q_len`; `host/include/priv/ssv_lib.h`, `ssv_list_q`.

The head of a list is a node like the others, so that a list is a ring of nodes. `Rings` says that a
memory of nodes holds a family of sequences: every head with its elements forms a ring, its counter
is the length, and no node serves two lists. Each operation turns a memory of one family into one of
the changed family.
-/

namespace Fullmac.Lists

variable {α : Type*}

/-- `struct ssv_list_q` -/
structure ListQ (α : Type*) where
  next : α
  prev : α
  qlen : UInt32

variable [DecidableEq α]

/-- `a->next = v` -/
def setNext (m : α → ListQ α) (a v : α) : α → ListQ α :=
  Function.update m a { m a with next := v }

/-- `a->prev = v` -/
def setPrev (m : α → ListQ α) (a v : α) : α → ListQ α :=
  Function.update m a { m a with prev := v }

/-- `a->qlen = v` -/
def setQlen (m : α → ListQ α) (a : α) (v : UInt32) : α → ListQ α :=
  Function.update m a { m a with qlen := v }

def listQInit (m : α → ListQ α) (qhd : α) : α → ListQ α :=
  let m := setPrev m qhd qhd
  let m := setNext m qhd qhd
  setQlen m qhd 0

def listQQtail (m : α → ListQ α) (qhd newq : α) : α → ListQ α :=
  let next := qhd
  let prev := (m qhd).prev
  let m := setNext m newq next
  let m := setPrev m newq prev
  let m := setPrev m next newq
  let m := setNext m prev newq
  setQlen m qhd ((m qhd).qlen + 1)

def listQInsert (m : α → ListQ α) (qhd prev newq : α) : α → ListQ α :=
  let next := (m prev).next
  let m := setNext m newq next
  let m := setPrev m newq prev
  let m := setPrev m next newq
  let m := setNext m prev newq
  setQlen m qhd ((m qhd).qlen + 1)

def listQRemove (m : α → ListQ α) (qhd curt : α) : α → ListQ α :=
  let next := (m curt).next
  let prev := (m curt).prev
  let m := setNext m prev next
  let m := setPrev m next prev
  setQlen m qhd ((m qhd).qlen - 1)

/-- The element taken out, or `null`. -/
def listQDeq (null : α) (m : α → ListQ α) (qhd : α) : (α → ListQ α) × α :=
  let elm := (m qhd).next
  if 0 < (m qhd).qlen ∧ elm ≠ null then
    let m := setQlen m qhd ((m qhd).qlen - 1)
    let next := (m elm).next
    let prev := (m elm).prev
    let m := setNext m elm null
    let m := setPrev m elm null
    let m := setPrev m next prev
    let m := setNext m prev next
    (m, elm)
  else (m, null)

def listQLen (m : α → ListQ α) (qhd : α) : UInt32 := (m qhd).qlen

/-! ## What the assignments change -/

section Assignments

variable (m : α → ListQ α) (a b v : α) (n : UInt32)

/-- A field that an assignment sets. -/
theorem update_set {γ : Type*} (f : ListQ α → γ) (c : ListQ α) :
    f (Function.update m a c b) = if b = a then f c else f (m b) := by
  rw [Function.update_apply, apply_ite f]

/-- A field that an assignment leaves. -/
theorem update_keep {γ : Type*} (f : ListQ α → γ) {c : ListQ α} (hc : f c = f (m a)) :
    f (Function.update m a c b) = f (m b) := by
  rw [update_set m a b f c, hc]
  split
  next hba => rw [hba]
  next => rfl

@[simp] theorem setNext_next : (setNext m a v b).next = if b = a then v else (m b).next :=
  update_set m a b ListQ.next _

@[simp] theorem setNext_prev : (setNext m a v b).prev = (m b).prev :=
  update_keep m a b ListQ.prev rfl

@[simp] theorem setNext_qlen : (setNext m a v b).qlen = (m b).qlen :=
  update_keep m a b ListQ.qlen rfl

@[simp] theorem setPrev_next : (setPrev m a v b).next = (m b).next :=
  update_keep m a b ListQ.next rfl

@[simp] theorem setPrev_prev : (setPrev m a v b).prev = if b = a then v else (m b).prev :=
  update_set m a b ListQ.prev _

@[simp] theorem setPrev_qlen : (setPrev m a v b).qlen = (m b).qlen :=
  update_keep m a b ListQ.qlen rfl

@[simp] theorem setQlen_next : (setQlen m a n b).next = (m b).next :=
  update_keep m a b ListQ.next rfl

@[simp] theorem setQlen_prev : (setQlen m a n b).prev = (m b).prev :=
  update_keep m a b ListQ.prev rfl

@[simp] theorem setQlen_qlen : (setQlen m a n b).qlen = if b = a then n else (m b).qlen :=
  update_set m a b ListQ.qlen _

variable {m a b}

theorem setNext_of_ne (h : b ≠ a) : setNext m a v b = m b := Function.update_of_ne h _ m

theorem setPrev_of_ne (h : b ≠ a) : setPrev m a v b = m b := Function.update_of_ne h _ m

theorem setQlen_of_ne (h : b ≠ a) : setQlen m a n b = m b := Function.update_of_ne h _ m

end Assignments

/-! ## A memory that holds a family of sequences -/

variable {null h x p : α} {m m' : α → ListQ α} {s : Seqs α α} {xs xs' : List α}

/-- The node `qhd` heads a ring of the elements `xs` and counts them. -/
structure Holds (null : α) (m : α → ListQ α) (qhd : α) (xs : List α) : Prop where
  ring : Ring (fun a => (m a).next) (fun a => (m a).prev) (qhd :: xs : List α)
  qlen : (m qhd).qlen = UInt32.ofNat xs.length
  ne_null : ∀ a ∈ qhd :: xs, a ≠ null

/-- Every head holds its sequence, and no node is part of two lists. -/
abbrev Rings (null : α) (m : α → ListQ α) (s : Seqs α α) : Prop :=
  Family (Holds null m) List.cons s

namespace Holds

omit [DecidableEq α] in
theorem nodup (hh : Holds null m h xs) : (h :: xs).Nodup := (Ring.coe_iff.mp hh.ring).1

omit [DecidableEq α] in
theorem congr (hm : ∀ a ∈ h :: xs, m' a = m a) (hh : Holds null m h xs) : Holds null m' h xs where
  ring := hh.ring.congr (fun a ha => by rw [hm a ha]) fun a ha => by rw [hm a ha]
  qlen := by rw [hm h List.mem_cons_self, hh.qlen]
  ne_null := hh.ne_null

theorem init (m : α → ListQ α) (hne : h ≠ null) : Holds null (listQInit m h) h [] where
  ring := Ring.singleton (by simp [listQInit]) (by simp [listQInit])
  qlen := by simp [listQInit]
  ne_null a ha := by rwa [List.mem_singleton.mp ha]

theorem insert (hh : Holds null m h xs) (hp : p ∈ h :: xs) (hx : x ∉ h :: xs) (hne : x ≠ null) :
    Holds null (listQInsert m h p x) h (insertBehind h p x xs) := by
  have hpx : p ≠ x := fun hpx => hx (hpx ▸ hp)
  obtain ⟨l₁, l₂, hxs, hpl⟩ := List.eq_append_cons_of_mem hp
  have hins : h :: insertBehind h p x xs = l₁ ++ p :: x :: l₂ := by
    rw [cons_insertBehind, hxs, insertAfter_append hpl]
  have hring := hh.ring
  have hnx : (m p).next ≠ x := fun hnx => hx (hnx ▸ hring.next_mem hp)
  rw [hxs] at hring hx
  refine ⟨?_, ?_, fun a ha => ?_⟩
  · rw [hins]
    refine hring.insert hx ?_ ?_ ?_ ?_ (fun d hd hdp => ?_) fun d hd hdn => ?_
    · simp [listQInsert]
    · simp [listQInsert, hpx.symm]
    · simp [listQInsert, hnx.symm]
    · simp [listQInsert]
    · have hdx : d ≠ x := fun hdx => hx (hdx ▸ hd)
      simp [listQInsert, hdp, hdx]
    · have hdx : d ≠ x := fun hdx => hx (hdx ▸ hd)
      simp [listQInsert, hdn, hdx]
  · have hlen : (insertBehind h p x xs).length = xs.length + 1 := by
      have hins' := congrArg List.length hins
      have hxs' := congrArg List.length hxs
      simp only [List.length_cons, List.length_append] at hins' hxs'
      omega
    simp [listQInsert, hlen, hh.qlen]
  · rw [cons_insertBehind] at ha
    rcases mem_insertAfter ha with rfl | ha
    · exact hne
    · exact hh.ne_null a ha

/-- The tail of a list is the place behind the last node. -/
theorem qtail_eq (hh : Holds null m h xs) (x : α) :
    (m h).prev ∈ h :: xs ∧ listQQtail m h x = listQInsert m h (m h).prev x
      ∧ insertBehind h (m h).prev x xs = xs ++ [x] := by
  obtain ⟨l₁, hxs, hnext⟩ := hh.ring.exists_append_prev
  have hpl : (m h).prev ∉ l₁ := by
    have hnodup := hh.nodup
    rw [hxs, List.nodup_append'] at hnodup
    exact fun hmem => hnodup.2.2 hmem List.mem_cons_self
  refine ⟨?_, ?_, List.cons_injective (a := h) ?_⟩
  · rw [hxs]
    exact List.mem_append_right l₁ List.mem_cons_self
  · rw [listQInsert, listQQtail, hnext]
  · rw [cons_insertBehind, hxs, insertAfter_append hpl, ← List.cons_append, hxs,
      List.append_assoc, List.singleton_append]

theorem remove (hh : Holds null m h xs) (hx : x ∈ xs) :
    Holds null (listQRemove m h x) h (xs.erase x) := by
  obtain ⟨ys, l₂, hxs, hxys⟩ := List.eq_append_cons_of_mem hx
  obtain ⟨l₁, p, hl₁⟩ : ∃ l₁ p, h :: ys = l₁ ++ [p] :=
    ⟨_, _, (List.dropLast_append_getLast (List.cons_ne_nil h ys)).symm⟩
  have hold : h :: xs = l₁ ++ p :: x :: l₂ := by
    rw [hxs, ← List.cons_append, hl₁, List.append_assoc, List.singleton_append]
  have hnew : h :: xs.erase x = l₁ ++ p :: l₂ := by
    rw [hxs, List.erase_append_right _ hxys, List.erase_cons_head, ← List.cons_append, hl₁,
      List.append_assoc, List.singleton_append]
  have hring := hh.ring
  rw [hold] at hring
  have hprev : (m x).prev = p := hring.prev_eq_of_append
  refine ⟨?_, ?_, fun a ha => hh.ne_null a ?_⟩
  · rw [hnew]
    refine hring.remove ?_ ?_ (fun d _ hdp => ?_) fun d _ hdn => ?_
    · simp [listQRemove, hprev]
    · simp [listQRemove, hprev]
    · simp [listQRemove, hprev, hdp]
    · simp [listQRemove, hdn]
  · have hlen : xs.length = (xs.erase x).length + 1 := by
      rw [List.length_erase_of_mem hx]
      have := List.length_pos_of_mem hx
      omega
    simp [listQRemove, hh.qlen, hlen]
  · exact List.cons_subset_cons h List.erase_subset ha

/-- Nothing is taken out of an empty list. -/
theorem deq_nil (hh : Holds null m h []) : listQDeq null m h = (m, null) := by
  rw [listQDeq, if_neg]
  simp [hh.qlen]

theorem deq_cons (hh : Holds null m h (x :: xs)) (hlen : (x :: xs).length < 2 ^ 32) :
    Holds null (listQDeq null m h).1 h xs ∧ (listQDeq null m h).2 = x := by
  have hnext : (m h).next = x := hh.ring.next_eq
  have hprev : (m x).prev = h := hh.ring.prev_eq
  obtain ⟨hxh, hxs⟩ : h ≠ x ∧ x ∉ xs := by
    obtain ⟨hh, hxs⟩ := List.nodup_cons.mp hh.nodup
    exact ⟨fun hhx => hh (hhx ▸ List.mem_cons_self), (List.nodup_cons.mp hxs).1⟩
  have hpos : 0 < (m h).qlen := by
    rw [hh.qlen, UInt32.lt_iff_toNat_lt, UInt32.toNat_ofNat_of_lt' hlen]
    exact Nat.succ_pos _
  have hkept : ∀ d ∈ h :: xs, d ≠ x := by
    rintro d hd rfl
    rcases List.mem_cons.mp hd with hd | hd
    · exact hxh hd.symm
    · exact hxs hd
  have hx : x ≠ null := hh.ne_null x (List.mem_cons_of_mem h List.mem_cons_self)
  rw [listQDeq, hnext, if_pos ⟨hpos, hx⟩]
  refine ⟨⟨?_, ?_, fun a ha => hh.ne_null a ?_⟩, rfl⟩
  · refine Ring.remove_front hh.ring ?_ ?_ (fun d hd hdh => ?_) fun d hd hdn => ?_
    · simp [hprev]
    · simp [hprev]
    · simp [hprev, hdh, hkept d hd]
    · simp [hdn, hkept d hd]
  · simp [hh.qlen]
  · exact List.cons_subset_cons h (List.subset_cons_self x xs) ha

end Holds

namespace Rings

theorem init (hs : Rings null m s) (hne : h ≠ null) (hfree : ∀ h' xs, s h' = some xs → h ∉ xs) :
    Rings null (listQInit m h) (Function.update s h (some [])) := by
  have hother : ∀ h' ys, h' ≠ h → s h' = some ys → h ∉ h' :: ys := fun h' ys hne hh' ha =>
    (List.mem_cons.mp ha).elim hne.symm (hfree h' ys hh')
  refine hs.update (Holds.init m hne) (fun h' ys a hne hh' ha hmem => ?_) fun h' ys hne hh' =>
    Holds.congr fun a ha => ?_
  · exact hother h' ys hne hh' (List.mem_singleton.mp hmem ▸ ha)
  · have hah : a ≠ h := fun hah => hother h' ys hne hh' (hah ▸ ha)
    rw [listQInit, setQlen_of_ne _ hah, setNext_of_ne _ hah, setPrev_of_ne _ hah]

theorem insert (hs : Rings null m s) (hh : s h = some xs) (hp : p ∈ h :: xs)
    (hx : Fresh null List.cons s x) :
    Rings null (listQInsert m h p x) (s.modify h (insertBehind h p x)) := by
  have hold := hs.holds h xs hh
  rw [Seqs.modify_eq hh]
  refine hs.modify null hh (hold.insert hp (hx.not_mem h xs hh) hx.ne_null) (fun a ha => ?_)
    fun h' ys _ hother => Holds.congr fun a ha => ?_
  · rw [cons_insertBehind] at ha
    rcases mem_insertAfter ha with rfl | ha
    · exact .inr hx
    · exact .inl ha
  · obtain ⟨hxs, hfresh⟩ := hother a ha
    have hax : a ≠ x := fun hax => hfresh (hax ▸ hx)
    have hah : a ≠ h := fun hah => hxs (hah ▸ List.mem_cons_self)
    have hap : a ≠ p := fun hap => hxs (hap ▸ hp)
    have han : a ≠ (m p).next := fun han => hxs (han ▸ hold.ring.next_mem hp)
    rw [listQInsert, setQlen_of_ne _ hah, setNext_of_ne _ hap, setPrev_of_ne _ han,
      setPrev_of_ne _ hax, setNext_of_ne _ hax]

theorem qtail (hs : Rings null m s) (hh : s h = some xs) (hx : Fresh null List.cons s x) :
    Rings null (listQQtail m h x) (s.modify h (· ++ [x])) := by
  obtain ⟨hp, htail, hins⟩ := (hs.holds h xs hh).qtail_eq x
  rw [htail, Seqs.modify_eq hh, ← hins, ← Seqs.modify_eq hh (insertBehind h (m h).prev x)]
  exact hs.insert hh hp hx

theorem remove (hs : Rings null m s) (hh : s h = some xs) (hx : x ∈ xs) :
    Rings null (listQRemove m h x) (s.modify h (·.erase x)) := by
  have hold := hs.holds h xs hh
  have hmem : x ∈ h :: xs := List.mem_cons_of_mem h hx
  rw [Seqs.modify_eq hh]
  refine hs.modify null hh (hold.remove hx) (fun a ha => .inl ?_)
    fun h' ys _ hother => Holds.congr fun a ha => ?_
  · exact List.cons_subset_cons h List.erase_subset ha
  · have hxs := (hother a ha).1
    have hah : a ≠ h := fun hah => hxs (hah ▸ List.mem_cons_self)
    have han : a ≠ (m x).next := fun han => hxs (han ▸ hold.ring.next_mem hmem)
    have hap : a ≠ (m x).prev := fun hap => hxs (hap ▸ hold.ring.prev_mem hmem)
    rw [listQRemove, setQlen_of_ne _ hah, setPrev_of_ne _ han, setNext_of_ne _ hap]

/-- The first element is taken out and answered, `null` where there is none. -/
theorem deq (hs : Rings null m s) (hh : s h = some xs) (hlen : xs.length < 2 ^ 32) :
    Rings null (listQDeq null m h).1 (s.modify h List.tail)
      ∧ (listQDeq null m h).2 = xs.headD null := by
  have hold := hs.holds h xs hh
  rw [Seqs.modify_eq hh]
  cases xs with
  | nil =>
    rw [hold.deq_nil, List.tail_nil, ← hh, Function.update_eq_self]
    exact ⟨hs, rfl⟩
  | cons x xs =>
    have hx : x ∈ h :: x :: xs := List.mem_cons_of_mem h List.mem_cons_self
    have hnext : (m h).next = x := hold.ring.next_eq
    obtain ⟨hnew, hout⟩ := hold.deq_cons hlen
    refine ⟨hs.modify null hh hnew (fun a ha => .inl ?_)
      fun h' ys _ hother => Holds.congr fun a ha => ?_, hout⟩
    · exact List.cons_subset_cons h (List.subset_cons_self x xs) ha
    · have hxs := (hother a ha).1
      have hah : a ≠ h := fun hah => hxs (hah ▸ List.mem_cons_self)
      have hax : a ≠ x := fun hax => hxs (hax ▸ hx)
      have han : a ≠ (m x).next := fun han => hxs (han ▸ hold.ring.next_mem hx)
      have hap : a ≠ (m x).prev := fun hap => hxs (hap ▸ hold.ring.prev_mem hx)
      rw [listQDeq, hnext]
      split
      · simp only [setQlen_next, setQlen_prev]
        rw [setNext_of_ne _ hap, setPrev_of_ne _ han, setPrev_of_ne _ hax, setNext_of_ne _ hax,
          setQlen_of_ne _ hah]
      · rfl

end Rings

end Fullmac.Lists
