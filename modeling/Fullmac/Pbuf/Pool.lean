import Fullmac.Lib.Machine
import Fullmac.Pbuf.Ownership
import Mathlib.Data.List.Perm.Subperm
import Mathlib.Data.List.Range

/-!
# The pools over whole runs

The list nodes hold the free lists of the ledger (`Inv`), so that a call finds an entry on a free
list exactly where the ledger has one, and the search of `__PBUF_MFree_0` finds the entry whose
buffer comes back.
-/

namespace Fullmac.Pbuf

open Fullmac.Lists

variable {s : Pools} {F : Pool → List Node} {out : List UInt32} {pool : Pool} {i : ℕ}
  {f : List Node} {size p : UInt32} {bufType : PBufType}

/-- The sequences under the two heads. -/
def seqs (F : Pool → List Node) : Seqs Node Node
  | .hd pool => some (F pool)
  | _ => none

theorem seqs_modify (F : Pool → List Node) (pool : Pool) (g : List Node → List Node) :
    (seqs F).modify (.hd pool) g = seqs (Function.update F pool (g (F pool))) := by
  funext a
  cases a with
  | hd pool' =>
    by_cases hpool : pool' = pool
    · subst hpool
      simp [Seqs.modify, seqs]
    · have hne : Node.hd pool' ≠ .hd pool := fun h => hpool (Node.hd.inj h)
      simp [Seqs.modify, seqs, hpool, hne]
  | _ => rfl

/-- The list nodes hold the free lists of the ledger. -/
structure Inv (s : Pools) (F : Pool → List Node) (out : List UInt32) : Prop where
  rings : Rings .null s.mem (seqs F)
  own : Own s F out

theorem Inv.init (pbufNo : UInt32) : Inv (pbufInit pbufNo) (fun _ => []) [] := by
  have hnotype : Rings .null (listQInit (fun _ => zeroNode) (.hd .notype))
      (Function.update (fun _ => none) (Node.hd .notype) (some [])) :=
    Rings.init Family.none (fun h => nomatch h) fun _ _ hh => nomatch hh
  have hrx := Rings.init (h := .hd .rx) hnotype (fun h => nomatch h) fun h xs hh => by
    rw [Function.update_apply] at hh
    split at hh
    · rw [← Option.some.inj hh]
      exact List.not_mem_nil
    · cases hh
  have hseqs : seqs (fun _ => []) = Function.update
      (Function.update (fun _ => none) (Node.hd .notype) (some [])) (Node.hd .rx) (some []) := by
    funext a
    cases a with
    | hd pool => cases pool <;> rfl
    | _ => rfl
  refine ⟨?_, Own.init pbufNo⟩
  rw [hseqs]
  exact hrx

theorem Own.length_le (hs : Own s F out) (hr : Rings .null s.mem (seqs F)) (pool : Pool) :
    (F pool).length ≤ s.cap pool := by
  have hnodup := (List.nodup_cons.mp (hr.holds (.hd pool) (F pool) rfl).nodup).2
  have hsub : F pool ⊆ (List.range (s.cap pool)).map (Node.entry pool) := fun a ha => by
    obtain ⟨i, rfl, hi⟩ := hs.free pool a ha
    exact List.mem_map.mpr ⟨i, List.mem_range.mpr hi.1, rfl⟩
  have hle := (hnodup.subperm hsub).length_le
  rwa [List.length_map, List.length_range] at hle

theorem Own.length_lt (hs : Own s F out) (hr : Rings .null s.mem (seqs F)) (pool : Pool) :
    (F pool).length < 2 ^ 32 := by
  refine Nat.lt_of_le_of_lt (hs.length_le hr pool) ?_
  cases pool with
  | notype => exact s.notypePbufMaxNo.toNat_lt
  | rx => exact Nat.lt_of_lt_of_le (by decide : maxRxPbufNo < 17) (by decide)

/-- An entry that has never been used is part of no list. -/
theorem Own.ne_of_mem {a h : Node} {xs : List Node} (hs : Own s F out)
    (hnot : ¬ s.Valid (.entry pool i)) (hh : seqs F h = some xs) (ha : a ∈ h :: xs) :
    a ≠ .entry pool i := by
  rintro rfl
  cases h with
  | hd pool' =>
    obtain rfl : F pool' = xs := Option.some.inj hh
    obtain ha | ha := List.mem_cons.mp ha
    · cases ha
    · exact hnot (hs.free pool' _ ha).choose_spec.2
  | _ => cases hh

theorem osMemAlloc_eq {blocks : UInt32 → Option UInt32} (hp : p ≠ 0)
    (hlive : osMemAlloc blocks size p ≠ .error .liveBlock) :
    blocks p = none ∧ osMemAlloc blocks size p = .ok (Function.update blocks p (some size)) := by
  rw [osMemAlloc, if_neg hp] at hlive ⊢
  by_cases hnone : blocks p = none
  · exact ⟨hnone, if_pos hnone⟩
  · exact absurd (if_neg hnone) hlive

/-- A new block is no other entry's block, and leaves that block as it is. -/
theorem Own.newBlock {a : Node} {blocks : UInt32 → Option UInt32} (hs : Own s F out)
    (ha : s.Valid a) (hkept : blocks (s.info a).pa = s.blocks (s.info a).pa)
    (hnone : blocks p = none) (size : UInt32) :
    (s.info a).pa ≠ p
      ∧ Function.update blocks p (some size) (s.info a).pa = s.blocks (s.info a).pa := by
  have hne : (s.info a).pa ≠ p := fun hpa => by
    obtain ⟨n, hn, -⟩ := hs.block a ha
    rw [hpa] at hkept hn
    rw [← hkept, hnone] at hn
    cases hn
  exact ⟨hne, by rw [Function.update_of_ne hne, hkept]⟩

/-- What a call for a buffer comes to: a buffer of at least `size` bytes, or none because all
entries are handed out. -/
inductive Served (s : Pools) (out : List UInt32) (pool : Pool) (size : UInt32) :
    Except Fault (Pools × UInt32) → Prop
  | allOut (h : ∀ i < s.cap pool, s.Valid (.entry pool i) ∧ (s.info (.entry pool i)).pa ∈ out) :
    Served s out pool size (.ok (s, 0))
  | buffer {s' : Pools} {r n : UInt32} {F' : Pool → List Node} (hr : r ≠ 0)
    (hinv : Inv s' F' (r :: out)) (hn : s'.blocks r = some n) (hsize : size.toNat ≤ n.toNat) :
    Served s out pool size (.ok (s', r))

theorem getPbufFromFreeQ_served (hs : Inv s F out) (hp : p ≠ 0) (hF : F pool ≠ [])
    (hlive : getPbufFromFreeQ s size (.hd pool) bufType p ≠ .error .liveBlock) :
    Served s out pool size (getPbufFromFreeQ s size (.hd pool) bufType p) := by
  obtain ⟨e, f, hef⟩ := List.exists_cons_of_ne_nil hF
  obtain ⟨hrings, hout⟩ := hs.rings.deq (h := .hd pool) rfl (hs.own.length_lt hs.rings pool)
  rw [seqs_modify, hef, List.tail_cons] at hrings
  rw [hef, List.headD_cons] at hout
  obtain ⟨i, rfl, hv⟩ := hs.own.free pool e (hef ▸ List.mem_cons_self)
  have hnodup := (List.nodup_cons.mp (hs.rings.holds (.hd pool) (F pool) rfl).nodup).2
  rw [hef] at hnodup
  have hnot : .entry pool i ∉ f := (List.nodup_cons.mp hnodup).1
  have hfree : (s.info (.entry pool i)).pa ∉ out := fun hmem => by
    have honce := hs.own.once pool i hv
    have hpos := List.count_pos_iff.mpr hmem
    rw [hef, List.count_cons_self] at honce
    omega
  rw [getPbufFromFreeQ] at hlive ⊢
  simp only [hout] at hlive ⊢
  rw [if_neg (fun h => nomatch h)] at hlive ⊢
  by_cases hsmall : (s.info (.entry pool i)).size.toUInt32 < size
  · rw [if_pos hsmall] at hlive ⊢
    obtain ⟨hnone, halloc⟩ := osMemAlloc_eq hp fun h => hlive (by rw [h]; rfl)
    rw [halloc]
    -- the other blocks are neither given back nor the new one
    have hother : ∀ a, s.Valid a → a ≠ .entry pool i → (s.info a).pa ≠ p ∧
        Function.update (osMemFree s.blocks (s.info (.entry pool i)).pa) p (some size) (s.info a).pa
          = s.blocks (s.info a).pa := fun a ha hne => by
      have hpa : (s.info a).pa ≠ (s.info (.entry pool i)).pa := fun hpa =>
        hne (hs.own.pa_inj a _ ha hv hpa)
      exact hs.own.newBlock ha (Function.update_of_ne hpa _ _) hnone size
    have hblock : Function.update (osMemFree s.blocks (s.info (.entry pool i)).pa) p (some size) p
        = some size := Function.update_self _ _ _
    change Served s out pool size (if p = 0 then .error .assertion else .ok _)
    rw [if_neg hp]
    refine .buffer hp ⟨hrings, ?_⟩ hblock (Nat.le_refl _)
    exact hs.own.handOut { s.info (.entry pool i) with
        pa := p, valid := 1, size := size.toUInt16, pbufType := bufType.code } hv.1 (.inr hef) hnot
      (fun _ => hfree) rfl rfl rfl hp ⟨size, hblock, Nat.mod_le _ _⟩ hother
  · rw [if_neg hsmall]
    obtain ⟨n, hn, hle⟩ := hs.own.block _ hv
    have hother : ∀ a, s.Valid a → a ≠ .entry pool i →
        (s.info a).pa ≠ (s.info (.entry pool i)).pa
          ∧ s.blocks (s.info a).pa = s.blocks (s.info a).pa := fun a ha hne =>
      ⟨fun hpa => hne (hs.own.pa_inj a _ ha hv hpa), rfl⟩
    have hvalid : (s.info (.entry pool i)).valid = 1 := (hs.own.flag _).resolve_left hv.2
    refine .buffer (hs.own.pa_ne_zero _ hv) ⟨hrings, hs.own.handOut _ hv.1 (.inr hef) hnot
      (fun _ => hfree) rfl (Function.update_eq_self _ _).symm hvalid (hs.own.pa_ne_zero _ hv)
      ⟨n, hn, hle⟩ hother⟩ hn (Nat.le_trans ?_ hle)
    rw [UInt32.lt_iff_toNat_lt, UInt16.toNat_toUInt32] at hsmall
    omega

/-- Where no entry is free, all entries that have been used are handed out. -/
theorem allOut_of_nil (hs : Own s F out) (hF : F pool = []) (hv : s.Valid (.entry pool i)) :
    (s.info (.entry pool i)).pa ∈ out := by
  have honce := hs.once pool i hv
  rw [hF, List.count_nil, Nat.zero_add] at honce
  exact List.count_pos_iff.mp (by omega)

theorem valid_of_unused_none (h : unused s pool = none) (hi : i < s.cap pool) :
    s.Valid (.entry pool i) := by
  rw [unused, List.find?_eq_none] at h
  have hone : (s.info (.entry pool i)).valid = 1 := by simpa using h i (List.mem_range.mpr hi)
  exact ⟨hi, by rw [hone]; decide⟩

theorem Own.not_valid_of_unused (hs : Own s F out) (h : unused s pool = some i) :
    i < s.cap pool ∧ ¬ s.Valid (.entry pool i) := by
  have hfound := List.find?_some h
  simp only [ne_eq, decide_eq_true_eq] at hfound
  exact ⟨List.mem_range.mp (List.mem_of_find?_eq_some h),
    fun hv => (hs.flag (.entry pool i)).elim hv.2 hfound⟩

/-- The counter of a free list tells whether it is empty. -/
theorem Inv.listQLen_eq_zero (hs : Inv s F out) (pool : Pool) :
    listQLen s.mem (.hd pool) = 0 ↔ F pool = [] := by
  rw [listQLen, (hs.rings.holds (.hd pool) (F pool) rfl).qlen, ← UInt32.toNat_inj,
    UInt32.toNat_ofNat_of_lt' (hs.own.length_lt hs.rings pool)]
  exact List.length_eq_zero_iff

theorem mallocFrom_served {onNull : Except Fault (Pools × UInt32)} (hs : Inv s F out)
    (hp : p ≠ 0) (hlive : mallocFrom s pool size bufType p onNull ≠ .error .liveBlock) :
    Served s out pool size (mallocFrom s pool size bufType p onNull) := by
  have hqlen := hs.listQLen_eq_zero pool
  rw [mallocFrom] at hlive ⊢
  by_cases hF : F pool = []
  · rw [if_pos (hqlen.mpr hF)] at hlive ⊢
    cases hunused : unused s pool with
    | none =>
      refine .allOut fun i hi => ?_
      have hv := valid_of_unused_none hunused hi
      exact ⟨hv, allOut_of_nil hs.own hF hv⟩
    | some i =>
      obtain ⟨hi, hnot⟩ := hs.own.not_valid_of_unused hunused
      simp only [hunused] at hlive ⊢
      obtain ⟨hnone, halloc⟩ := osMemAlloc_eq hp fun h => hlive (by rw [h]; rfl)
      rw [halloc]
      have hother : ∀ a, s.Valid a → a ≠ .entry pool i → (s.info a).pa ≠ p ∧
          Function.update s.blocks p (some size) (s.info a).pa = s.blocks (s.info a).pa :=
        fun a ha _ => hs.own.newBlock ha rfl hnone size
      have hblock : Function.update s.blocks p (some size) p = some size :=
        Function.update_self _ _ _
      change Served s out pool size (if p = 0 then onNull else .ok _)
      rw [if_neg hp]
      have hrings : Rings .null (Function.update s.mem (.entry pool i) zeroNode) (seqs F) :=
        hs.rings.congr fun h xs hh => Holds.congr fun a ha =>
          Function.update_of_ne (hs.own.ne_of_mem hnot hh ha) _ _
      refine .buffer hp ⟨hrings, ?_⟩ hblock (Nat.le_refl _)
      have hsame : F = Function.update F pool [] := by rw [← hF, Function.update_eq_self]
      rw [hsame]
      exact hs.own.handOut
        { valid := 1, pbufId := UInt16.ofNat i, size := size.toUInt16, pbufType := bufType.code,
          pa := p } hi (.inl hF) List.not_mem_nil (fun hv => absurd hv hnot) rfl rfl rfl hp
        ⟨size, hblock, Nat.mod_le _ _⟩ hother
  · rw [if_neg (mt hqlen.mp hF)] at hlive ⊢
    exact getPbufFromFreeQ_served hs hp hF hlive

theorem pbufMAllocRaw_served {needHeader : UInt32} (hs : Inv s F out) (hp : p ≠ 0)
    (hlive : pbufMAllocRaw s size needHeader bufType p ≠ .error .liveBlock) :
    (bufType = .txBuf ∧ pbufMAllocRaw s size needHeader bufType p = .ok (s, 0))
      ∨ ∃ pool : Pool, pool.bufType = bufType ∧ Served s out pool (requested size needHeader)
        (pbufMAllocRaw s size needHeader bufType p) := by
  cases bufType with
  | notypeBuf => exact .inr ⟨.notype, rfl, mallocFrom_served hs hp hlive⟩
  | rxBuf => exact .inr ⟨.rx, rfl, mallocFrom_served hs hp hlive⟩
  | txBuf => exact .inl ⟨rfl, rfl⟩

/-! ## Giving a buffer back -/

theorem Own.withMem (hs : Own s F out) (mem : Node → ListQ Node) :
    Own { s with mem := mem } F out where
  flag := hs.flag
  free := hs.free
  pa_ne_zero := hs.pa_ne_zero
  block := hs.block
  pa_inj := hs.pa_inj
  once := hs.once
  out := hs.out

/-- An entry that is handed out is part of no list. -/
theorem Own.fresh (hs : Own s F out) (hv : s.Valid (.entry pool i))
    (hout : (s.info (.entry pool i)).pa ∈ out) :
    Fresh .null List.cons (seqs F) (.entry pool i) where
  ne_null h := nomatch h
  not_mem h xs hh hmem := by
    cases h with
    | hd pool' =>
      obtain rfl : F pool' = xs := Option.some.inj hh
      obtain hmem | hmem := List.mem_cons.mp hmem
      · cases hmem
      · obtain ⟨j, hj, -⟩ := hs.free pool' _ hmem
        obtain ⟨rfl, -⟩ := Node.entry.inj hj
        have honce := hs.once pool i hv
        have hpos := List.count_pos_iff.mpr hmem
        have hpos' := List.count_pos_iff.mpr hout
        omega
    | _ => cases hh

theorem Inv.giveBack (hs : Inv s F out) (hv : s.Valid (.entry pool i))
    (hout : (s.info (.entry pool i)).pa ∈ out) :
    Inv { s with mem := listQQtail s.mem (.hd pool) (.entry pool i) }
      (Function.update F pool (F pool ++ [.entry pool i]))
      (out.erase (s.info (.entry pool i)).pa) where
  rings := by
    have hrings := Rings.qtail (h := .hd pool) hs.rings rfl (hs.own.fresh hv hout)
    rwa [seqs_modify] at hrings
  own := (hs.own.takeBack hv hout).withMem _

theorem valid_of_holder {msg : UInt32} (h : holder s pool msg = some i) :
    s.Valid (.entry pool i) ∧ (s.info (.entry pool i)).pa = msg := by
  have hfound := List.find?_some h
  have hi := List.mem_range.mp (List.mem_of_find?_eq_some h)
  simp only [ne_eq, decide_eq_true_eq] at hfound
  exact ⟨⟨hi, hfound.1⟩, hfound.2⟩

theorem holder_ne_none (hv : s.Valid (.entry pool i)) :
    holder s pool (s.info (.entry pool i)).pa ≠ none := by
  intro hnone
  rw [holder, List.find?_eq_none] at hnone
  exact hnone i (List.mem_range.mpr hv.1) (by simpa using hv.2)

theorem pbufMFree_inv {msg : UInt32} (hs : Inv s F out) (hmsg : msg ∈ out) :
    ∃ s' F', pbufMFree s msg = .ok s' ∧ Inv s' F' (out.erase msg) := by
  have hback : ∀ {pool i}, holder s pool msg = some i →
      ∃ F', Inv { s with mem := listQQtail s.mem (.hd pool) (.entry pool i) } F' (out.erase msg) :=
    fun h => by
      obtain ⟨hv, rfl⟩ := valid_of_holder h
      exact ⟨_, hs.giveBack hv hmsg⟩
  rw [pbufMFree]
  cases hnotype : holder s .notype msg with
  | some i =>
    obtain ⟨F', hF'⟩ := hback hnotype
    exact ⟨_, F', rfl, hF'⟩
  | none =>
    cases hrx : holder s .rx msg with
    | some i =>
      obtain ⟨F', hF'⟩ := hback hrx
      exact ⟨_, F', rfl, hF'⟩
    | none =>
      obtain ⟨a, ha, rfl⟩ := hs.own.out msg hmsg
      cases a with
      | entry pool i =>
        cases pool with
        | notype => exact absurd hnotype (holder_ne_none ha)
        | rx => exact absurd hrx (holder_ne_none ha)
      | _ => exact absurd ha id

/-! ## Whole runs -/

/-- The size asked for does not overflow, `OS_MemAlloc` answers an address that is not in use, and
only buffers that are out come back. -/
def Allowed (s : State) : Call → Prop
  | .malloc size needHeader bufType p =>
    size.toNat + (if needHeader ≠ 0 then extraHeader.toNat else 0) < 2 ^ 32 ∧ p ≠ 0
      ∧ pbufMAllocRaw s.pools size needHeader bufType p ≠ .error .liveBlock
  | .free msg => msg ∈ s.out

theorem requested_toNat {needHeader : UInt32}
    (h : size.toNat + (if needHeader ≠ 0 then extraHeader.toNat else 0) < 2 ^ 32) :
    (requested size needHeader).toNat
      = size.toNat + (if needHeader ≠ 0 then extraHeader.toNat else 0) := by
  rw [requested]
  split at h
  next hne =>
    rw [if_pos hne, if_pos hne, UInt32.toNat_add, Nat.mod_eq_of_lt h]
  next hne => rw [if_neg hne, if_neg hne, Nat.add_zero]

/-- Read along the links from the head, the free list of the pool shows `f`. -/
def FreeList (s : Pools) (pool : Pool) (f : List Node) : Prop :=
  Threads (fun a => (s.mem a).next) (.hd pool) (s.mem (.hd pool)).next f

/-- Each valid entry is handed out or on the free list of its own pool, once, and on no other; a
call for a buffer answers one that is large enough and not out, or `NULL` where all entries of its
type are out; and a buffer that is out can be given back. -/
structure Sound (s : State) : Prop where
  once : ∃ F : Pool → List Node, (∀ pool, FreeList s.pools pool (F pool)) ∧
    ∀ pool i, s.pools.Valid (.entry pool i) →
      (F pool).count (.entry pool i) + s.out.count (s.pools.info (.entry pool i)).pa = 1
        ∧ ∀ pool', pool' ≠ pool → .entry pool i ∉ F pool'
  malloc : ∀ size needHeader bufType p, Allowed s (.malloc size needHeader bufType p) →
    ∃ s' r, pbufMAllocRaw s.pools size needHeader bufType p = .ok (s', r)
      ∧ (r ≠ 0 → r ∉ s.out ∧ ∃ n, s'.blocks r = some n
        ∧ size.toNat + (if needHeader ≠ 0 then extraHeader.toNat else 0) ≤ n.toNat)
      ∧ (r = 0 → ∀ pool : Pool, pool.bufType = bufType → ∀ i < s.pools.cap pool,
        s.pools.Valid (.entry pool i) ∧ (s.pools.info (.entry pool i)).pa ∈ s.out)
  free : ∀ msg ∈ s.out, ∃ s', pbufMFree s.pools msg = .ok s'

theorem Inv.sound {s : State} (hs : Inv s.pools F s.out) : Sound s where
  once := by
    refine ⟨F, fun pool => (hs.rings.holds (.hd pool) (F pool) rfl).ring.threads_next,
      fun pool i hv => ⟨hs.own.once pool i hv, fun pool' hne hmem => ?_⟩⟩
    obtain ⟨j, hj, -⟩ := hs.own.free pool' _ hmem
    exact hne (Node.entry.inj hj).1.symm
  malloc size needHeader bufType p := by
    rintro ⟨hsize, hp, hlive⟩
    rcases pbufMAllocRaw_served hs hp hlive with ⟨rfl, htx⟩ | ⟨pool, rfl, hserved⟩
    · refine ⟨s.pools, 0, htx, fun h => absurd rfl h, fun _ pool hpool => ?_⟩
      cases pool <;> cases hpool
    · generalize hres : pbufMAllocRaw s.pools size needHeader pool.bufType p = res at hserved
      cases hserved with
      | allOut h =>
        refine ⟨s.pools, 0, rfl, fun h => absurd rfl h, fun _ pool' hpool => ?_⟩
        obtain rfl : pool' = pool := by
          cases pool <;> cases pool' <;> first | rfl | cases hpool
        exact h
      | buffer hr hinv hn hle =>
        refine ⟨_, _, rfl, fun _ => ⟨?_, _, hn, ?_⟩, fun h => absurd h hr⟩
        · exact (List.nodup_cons.mp hinv.own.nodup).1
        · rwa [requested_toNat hsize] at hle
  free msg hmsg := by
    obtain ⟨s', F', hs', -⟩ := pbufMFree_inv hs hmsg
    exact ⟨s', hs'⟩

theorem step_inv {s : State} {c : Call} (hs : Inv s.pools F s.out) (hc : Allowed s c) :
    (∃ F', Inv (step s c).1.pools F' (step s c).1.out) ∧ ∀ f, .fault f ∉ (step s c).2 := by
  cases c with
  | malloc size needHeader bufType p =>
    obtain ⟨-, hp, hlive⟩ := hc
    rw [step]
    rcases pbufMAllocRaw_served hs hp hlive with ⟨rfl, htx⟩ | ⟨pool, rfl, hserved⟩
    · rw [htx]
      exact ⟨⟨F, hs⟩, fun f hf => by simp at hf⟩
    · generalize pbufMAllocRaw s.pools size needHeader pool.bufType p = res at hserved
      cases hserved with
      | allOut h => exact ⟨⟨F, hs⟩, fun f hf => by simp at hf⟩
      | @buffer _ _ _ F' hr hinv =>
        refine ⟨⟨F', ?_⟩, fun f hf => by simp at hf⟩
        simp only [if_neg hr]
        exact hinv
  | free msg =>
    obtain ⟨s', F', hs', hinv⟩ := pbufMFree_inv hs hc
    rw [step, hs']
    exact ⟨⟨F', hinv⟩, fun f hf => by simp at hf⟩

/-- After every run of allowed calls from `PBUF_Init` the pools are sound, and no call has failed.
-/
theorem pbuf_sound_of_run (pbufNo : UInt32) (calls : List Call)
    (h : Machine.Meets step Allowed ⟨pbufInit pbufNo, []⟩ calls) :
    Sound (Machine.run step ⟨pbufInit pbufNo, []⟩ calls).1
      ∧ ∀ f, .fault f ∉ (Machine.run step ⟨pbufInit pbufNo, []⟩ calls).2 := by
  have hrun := Machine.run_induction_of_meets
    (P := fun s _ tr => (∃ F, Inv s.pools F s.out) ∧ ∀ f, .fault f ∉ tr)
    ⟨⟨_, Inv.init pbufNo⟩, fun f hf => nomatch hf⟩
    (fun s _ tr c hc hs => by
      obtain ⟨⟨F, hinv⟩, htr⟩ := hs
      obtain ⟨hnext, hout⟩ := step_inv hinv hc
      exact ⟨hnext, fun f hf => (List.mem_append.mp hf).elim (htr f) (hout f)⟩) calls h
  exact ⟨hrun.1.choose_spec.sound, hrun.2⟩

/-- An entry whose block is replaced by a larger one at the address of the block given back, and a
pool of one entry that has none left. -/
theorem pbuf_sound_of_run_replaced :
    Sound (Machine.run step ⟨pbufInit 1, []⟩ [.malloc 100 1 .notypeBuf 4096, .free 4096,
      .malloc 200 1 .notypeBuf 4096, .malloc 10 0 .rxBuf 8192, .malloc 10 0 .notypeBuf 64]).1 := by
  refine (pbuf_sound_of_run 1 _ ?_).1
  have hok : ∀ {x : Except Fault (Pools × UInt32)}, x.isOk = true → x ≠ .error .liveBlock := by
    rintro x hx rfl
    cases hx
  refine ⟨⟨by decide, by decide, hok ?_⟩, ?_, ⟨by decide, by decide, hok ?_⟩,
    ⟨by decide, by decide, hok ?_⟩, ⟨by decide, by decide, hok ?_⟩, trivial⟩
  · decide +kernel
  · change _ ∈ _
    decide +kernel
  · decide +kernel
  · decide +kernel
  · decide +kernel

end Fullmac.Pbuf
