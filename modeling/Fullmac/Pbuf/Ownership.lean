import Fullmac.Pbuf.Model

/-!
# Who has an entry

`Own s F out` is the ledger of the pools: with the free lists `F` and the buffers `out` handed out,
each valid entry is either on the free list of its pool or handed out, once; no two have the same
block; and every block is large enough for the size its entry notes. It says nothing of list nodes.
Handing an entry out, with the block it has or with a new one, keeps the ledger (`Own.handOut`), and
so does taking a buffer back (`Own.takeBack`).
-/

namespace Fullmac.Pbuf

variable {s s' : Pools} {F : Pool → List Node} {out : List UInt32} {pool : Pool} {i : ℕ}
  {f : List Node}

/-- An entry that has been used. -/
def Pools.Valid (s : Pools) : Node → Prop
  | .entry pool i => i < s.cap pool ∧ (s.info (.entry pool i)).valid ≠ 0
  | _ => False

theorem Pools.cap_congr (hno : s'.notypePbufMaxNo = s.notypePbufMaxNo) (pool : Pool) :
    s'.cap pool = s.cap pool := by
  cases pool with
  | notype => rw [cap, hno, cap]
  | rx => rfl

theorem Pools.valid_congr {a : Node} (hno : s'.notypePbufMaxNo = s.notypePbufMaxNo)
    (hinfo : s'.info a = s.info a) : s'.Valid a ↔ s.Valid a := by
  cases a with
  | entry pool i => rw [Valid, Valid, cap_congr hno, hinfo]
  | _ => exact Iff.rfl

/-- Taking one entry off a free list does not touch the others. -/
theorem count_update_of_ne {e a : Node} (hf : F pool = f ∨ F pool = e :: f) (ha : a ≠ e)
    (pool' : Pool) : (Function.update F pool f pool').count a = (F pool').count a := by
  by_cases hpool : pool' = pool
  · subst hpool
    rw [Function.update_self]
    rcases hf with hf | hf
    · rw [hf]
    · rw [hf, List.count_cons_of_ne (Ne.symm ha)]
  · rw [Function.update_of_ne hpool]

/-- The free lists `F` and the buffers `out` account for all valid entries. -/
structure Own (s : Pools) (F : Pool → List Node) (out : List UInt32) : Prop where
  flag : ∀ a, (s.info a).valid = 0 ∨ (s.info a).valid = 1
  free : ∀ pool, ∀ a ∈ F pool, ∃ i, a = .entry pool i ∧ s.Valid a
  pa_ne_zero : ∀ a, s.Valid a → (s.info a).pa ≠ 0
  block : ∀ a, s.Valid a →
    ∃ n, s.blocks (s.info a).pa = some n ∧ (s.info a).size.toNat ≤ n.toNat
  pa_inj : ∀ a b, s.Valid a → s.Valid b → (s.info a).pa = (s.info b).pa → a = b
  once : ∀ pool i, s.Valid (.entry pool i) →
    (F pool).count (.entry pool i) + out.count (s.info (.entry pool i)).pa = 1
  out : ∀ p ∈ out, ∃ a, s.Valid a ∧ (s.info a).pa = p

/-- At the start no entry is valid. -/
theorem Own.init (pbufNo : UInt32) : Own (pbufInit pbufNo) (fun _ => []) [] := by
  have hnone : ∀ a, ¬ (pbufInit pbufNo).Valid a := fun a ha => by
    cases a with
    | entry pool i => exact ha.2 rfl
    | _ => exact ha
  exact {
    flag := fun _ => .inl rfl
    free := fun _ _ ha => nomatch ha
    pa_ne_zero := fun a ha => absurd ha (hnone a)
    block := fun a ha => absurd ha (hnone a)
    pa_inj := fun a _ ha => absurd ha (hnone a)
    once := fun _ _ ha => absurd ha (hnone _)
    out := fun _ hp => nomatch hp }

namespace Own

theorem nodup (hs : Own s F out) : out.Nodup := by
  rw [List.nodup_iff_count_le_one]
  intro p
  by_cases hp : p ∈ out
  · obtain ⟨a, ha, rfl⟩ := hs.out p hp
    cases a with
    | entry pool i =>
      have honce := hs.once pool i ha
      omega
    | _ => exact absurd ha id
  · rw [List.count_eq_zero_of_not_mem hp]
    exact Nat.zero_le 1

/-- The entry, free or new, gets the data `new` and is handed out. -/
theorem handOut (hs : Own s F out) (new : HwPbufInfo) (hi : i < s.cap pool)
    (hf : F pool = f ∨ F pool = .entry pool i :: f) (hnot : .entry pool i ∉ f)
    (hfree : s.Valid (.entry pool i) → (s.info (.entry pool i)).pa ∉ out)
    (hno : s'.notypePbufMaxNo = s.notypePbufMaxNo)
    (hinfo : s'.info = Function.update s.info (.entry pool i) new) (hvalid : new.valid = 1)
    (hpa : new.pa ≠ 0) (hblock : ∃ n, s'.blocks new.pa = some n ∧ new.size.toNat ≤ n.toNat)
    (hother : ∀ a, s.Valid a → a ≠ .entry pool i →
      (s.info a).pa ≠ new.pa ∧ s'.blocks (s.info a).pa = s.blocks (s.info a).pa) :
    Own s' (Function.update F pool f) (new.pa :: out) := by
  have hself : s'.info (.entry pool i) = new := by rw [hinfo, Function.update_self]
  have hkeep : ∀ a, a ≠ .entry pool i → s'.info a = s.info a := fun a ha => by
    rw [hinfo, Function.update_of_ne ha]
  have hnew : s'.Valid (.entry pool i) := by
    refine ⟨by rwa [Pools.cap_congr hno], ?_⟩
    rw [hself, hvalid]
    decide
  have hold : ∀ a, a ≠ .entry pool i → (s'.Valid a ↔ s.Valid a) := fun a ha =>
    Pools.valid_congr hno (hkeep a ha)
  -- no buffer that is out already is the one handed out now
  have hpaOut : ∀ p ∈ out, ∃ a, s.Valid a ∧ a ≠ .entry pool i ∧ (s.info a).pa = p := fun p hp => by
    obtain ⟨a, ha, rfl⟩ := hs.out p hp
    exact ⟨a, ha, fun hai => hfree (hai ▸ ha) (hai ▸ hp), rfl⟩
  have hfresh : new.pa ∉ out := fun hp => by
    obtain ⟨a, ha, hne, hpa⟩ := hpaOut _ hp
    exact (hother a ha hne).1 hpa
  refine ⟨fun a => ?_, fun pool' a ha => ?_, fun a ha => ?_, fun a ha => ?_,
    fun a b ha hb hab => ?_, fun pool' j ha => ?_, fun p hp => ?_⟩
  · by_cases hai : a = .entry pool i
    · rw [hai, hself]
      exact .inr hvalid
    · rw [hkeep a hai]
      exact hs.flag a
  · have hne : a ≠ .entry pool i := fun hai => by
      by_cases hpool : pool' = pool
      · subst hpool
        rw [Function.update_self] at ha
        exact hnot (hai ▸ ha)
      · rw [Function.update_of_ne hpool] at ha
        obtain ⟨j, haj, -⟩ := hs.free pool' a ha
        exact hpool (Node.entry.inj (haj.symm.trans hai)).1
    rw [← List.count_pos_iff, count_update_of_ne hf hne, List.count_pos_iff] at ha
    obtain ⟨j, haj, hva⟩ := hs.free pool' a ha
    exact ⟨j, haj, (hold a hne).mpr hva⟩
  · by_cases hai : a = .entry pool i
    · rwa [hai, hself]
    · rw [hkeep a hai]
      exact hs.pa_ne_zero a ((hold a hai).mp ha)
  · by_cases hai : a = .entry pool i
    · rw [hai, hself]
      exact hblock
    · have hva := (hold a hai).mp ha
      rw [hkeep a hai, (hother a hva hai).2]
      exact hs.block a hva
  · by_cases hai : a = .entry pool i <;> by_cases hbi : b = .entry pool i
    · rw [hai, hbi]
    · rw [hai, hself, hkeep b hbi] at hab
      exact absurd hab.symm (hother b ((hold b hbi).mp hb) hbi).1
    · rw [hbi, hself, hkeep a hai] at hab
      exact absurd hab (hother a ((hold a hai).mp ha) hai).1
    · rw [hkeep a hai, hkeep b hbi] at hab
      exact hs.pa_inj a b ((hold a hai).mp ha) ((hold b hbi).mp hb) hab
  · by_cases hai : Node.entry pool' j = .entry pool i
    · obtain ⟨rfl, rfl⟩ := Node.entry.inj hai
      rw [Function.update_self, hself, List.count_eq_zero_of_not_mem hnot, List.count_cons_self,
        List.count_eq_zero_of_not_mem hfresh]
    · have hva := (hold _ hai).mp ha
      rw [count_update_of_ne hf hai, hkeep _ hai, List.count_cons_of_ne (hother _ hva hai).1.symm]
      exact hs.once pool' j hva
  · rcases List.mem_cons.mp hp with rfl | hp
    · exact ⟨.entry pool i, hnew, by rw [hself]⟩
    · obtain ⟨a, hva, hne, hpa⟩ := hpaOut p hp
      exact ⟨a, (hold a hne).mpr hva, by rw [hkeep a hne, hpa]⟩

/-- A buffer that is out comes back to the free list of its entry. -/
theorem takeBack (hs : Own s F out) (hv : s.Valid (.entry pool i))
    (hout : (s.info (.entry pool i)).pa ∈ out) :
    Own s (Function.update F pool (F pool ++ [.entry pool i]))
      (out.erase (s.info (.entry pool i)).pa) := by
  refine ⟨hs.flag, fun pool' a ha => ?_, hs.pa_ne_zero, hs.block, hs.pa_inj, fun pool' j ha => ?_,
    fun p hp => hs.out p (List.mem_of_mem_erase hp)⟩
  · by_cases hpool : pool' = pool
    · subst hpool
      rw [Function.update_self, List.mem_append, List.mem_singleton] at ha
      rcases ha with ha | rfl
      · exact hs.free pool' a ha
      · exact ⟨i, rfl, hv⟩
    · rw [Function.update_of_ne hpool] at ha
      exact hs.free pool' a ha
  · have honce := hs.once pool' j ha
    by_cases hai : Node.entry pool' j = .entry pool i
    · obtain ⟨rfl, rfl⟩ := Node.entry.inj hai
      have hpos := List.count_pos_iff.mpr hout
      rw [Function.update_self, List.count_append, List.count_singleton_self, List.count_erase_self]
      omega
    · have hpa : (s.info (.entry pool' j)).pa ≠ (s.info (.entry pool i)).pa := fun hpa =>
        hai (hs.pa_inj _ _ ha hv hpa)
      rw [List.count_erase_of_ne hpa]
      by_cases hpool : pool' = pool
      · subst hpool
        have hsingle : Node.entry pool' j ∉ [Node.entry pool' i] := fun hmem =>
          hai (List.mem_singleton.mp hmem)
        rwa [Function.update_self, List.count_append, List.count_eq_zero_of_not_mem hsingle]
      · rwa [Function.update_of_ne hpool]

end Own

end Fullmac.Pbuf
