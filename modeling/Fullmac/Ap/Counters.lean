import Fullmac.Ap.Handlers
import Fullmac.Lib.Table

/-!
# The counters agree with the station table

The access point never counts its stations: it keeps a counter for each thing it wants to know and
adjusts it where a station's bit changes. `TableInv` says that the counters are right, that a slot
without a station is blank, and that AIDs and addresses tell stations apart; `StationsCounted` is
what follows for a reader of the table.

Four operations change the table: `apStaSetAuthorized` and `setCounted` move one bit and its
counter, `hostapdGetAid` takes an AID, `apStaInfoFree` gives back everything a station holds. The
last one goes through states that do not satisfy the invariant, so what holds all along is a part of
it (`Tallies`), and the rest is read off the table it ends with (`apStaInfoFree_touches`).
-/

namespace Fullmac.Ap

open Table

variable {cfg : ApCfg}

/-! ## The invariant -/

/-- The counters of bits agree with the bits. -/
structure Tallies (t : StaTable cfg) : Prop where
  numStaAuthorized : t.numStaAuthorized = count (·.authorized) t.sta
  num : ∀ c, t.num c = count (·.counted c) t.sta
  noUnderflow : t.underflow = false

/-- What holds of the table between two events. -/
structure TableInv (t : StaTable cfg) : Prop extends Tallies t where
  numSta : t.numSta = count (·.valid) t.sta
  blank : ∀ i, (t.sta i).valid = false →
    (t.sta i).authorized = false ∧ (t.sta i).aid = 0 ∧ ∀ c, (t.sta i).counted c = false
  staAid : ∀ j, t.staAid j = true ↔ ∃ i, (t.sta i).aid = j + 1
  aid_inj : ∀ i j, (t.sta i).aid = (t.sta j).aid → (t.sta i).aid ≠ 0 → i = j
  aid_of_assoc : ∀ i, (t.sta i).assoc = true → (t.sta i).aid ≠ 0
  addr_inj : ∀ i j, (t.sta i).valid = true → (t.sta j).valid = true →
    (t.sta i).addr = (t.sta j).addr → i = j

/-- The table is empty at the start. -/
theorem tableInv_initAp : TableInv (initAp cfg).table := by
  have hcount : ∀ p : StaEntry → Bool, p (resetStation : Station cfg).entry = false →
      0 = count p (initAp cfg).table.sta := fun p hp => (count_eq_zero fun _ => hp).symm
  constructor
  · exact ⟨hcount _ rfl, fun c => hcount _ rfl, rfl⟩
  · exact hcount _ rfl
  · exact fun i _ => ⟨rfl, rfl, fun _ => rfl⟩
  · exact fun j => ⟨fun h => absurd h Bool.false_ne_true, fun ⟨i, hi⟩ => absurd hi (by
      change 0 ≠ j + 1
      omega)⟩
  · exact fun i j _ h => absurd rfl h
  · exact fun i h => absurd h Bool.false_ne_true
  · exact fun i j h => absurd h Bool.false_ne_true

/-- A table has fewer stations of any kind than a counter can hold. -/
theorem count_sta_lt (p : StaEntry → Bool) (t : StaTable cfg) : count p t.sta < 255 := by
  have hle := count_le p t.sta
  have hmax := cfg.maxAid_le
  rw [Fintype.card_fin] at hle
  omega

theorem inc8_of_lt {n : ℕ} (h : n < 255) : inc8 n = n + 1 := by
  unfold inc8
  omega

theorem dec8_succ {n : ℕ} (h : n < 255) : dec8 (n + 1) = n := by
  unfold dec8
  omega

/-! ## One bit and its counter -/

/-- The entry of station `i` becomes `e`; its identity and the stations stay. -/
theorem TableInv.update {t t' : StaTable cfg} (h : TableInv t) (ht : Tallies t') {i : StaIdx cfg}
    {e : StaEntry} (hsta : t'.sta = Function.update t.sta i e) (hnum : t'.numSta = t.numSta)
    (hbits : t'.staAid = t.staAid) (hv : e.valid = (t.sta i).valid) (haid : e.aid = (t.sta i).aid)
    (haddr : e.addr = (t.sta i).addr) (has : e.assoc = true → (t.sta i).aid ≠ 0)
    (hb : e.valid = false → e.authorized = false ∧ ∀ c, e.counted c = false) : TableInv t' := by
  have hvalid : ∀ j, (t'.sta j).valid = (t.sta j).valid := hsta ▸ apply_update_of_eq _ hv
  have haids : ∀ j, (t'.sta j).aid = (t.sta j).aid := hsta ▸ apply_update_of_eq _ haid
  have haddrs : ∀ j, (t'.sta j).addr = (t.sta j).addr := hsta ▸ apply_update_of_eq _ haddr
  refine ⟨ht, ?_, fun j hj => ?_, fun k => ?_, fun j k => ?_, fun j hj => ?_, fun j k => ?_⟩
  · rw [hnum, h.numSta, hsta]
    exact (count_update_of_eq hv).symm
  · rw [haids]
    rw [hvalid] at hj
    obtain ⟨ha, hz, hc⟩ := h.blank j hj
    refine ⟨?_, hz, ?_⟩ <;> rw [hsta] <;> by_cases hji : j = i
    · subst hji; simpa using (hb (hv.trans hj)).1
    · rwa [Function.update_of_ne hji]
    · subst hji; simpa using (hb (hv.trans hj)).2
    · rwa [Function.update_of_ne hji]
  · rw [hbits, h.staAid k]
    exact exists_congr fun j => by rw [haids]
  · rw [haids, haids]
    exact h.aid_inj j k
  · rw [haids]
    by_cases hji : j = i
    · subst hji
      rw [hsta, Function.update_self] at hj
      exact has hj
    · rw [hsta, Function.update_of_ne hji] at hj
      exact h.aid_of_assoc j hj
  · rw [hvalid, hvalid, haddrs, haddrs]
    exact h.addr_inj j k

/-- A counter does not mind a change of other bits. -/
theorem eq_count_update {p : StaEntry → Bool} {t : StaTable cfg} {i : StaIdx cfg} {e : StaEntry}
    {n : ℕ} (hn : n = count p t.sta) (he : p e = p (t.sta i)) :
    n = count p (Function.update t.sta i e) := by
  rw [count_update_of_eq he, hn]

/-- An entry changes in other bits than the counted ones. -/
theorem Tallies.update {t t' : StaTable cfg} (h : Tallies t) {i : StaIdx cfg} {e : StaEntry}
    (hsta : t'.sta = Function.update t.sta i e) (ha : e.authorized = (t.sta i).authorized)
    (hc : ∀ c, e.counted c = (t.sta i).counted c)
    (hna : t'.numStaAuthorized = t.numStaAuthorized) (hn : t'.num = t.num)
    (hu : t'.underflow = t.underflow) : Tallies t' := by
  constructor
  · rw [hna, hsta]
    exact eq_count_update h.numStaAuthorized ha
  · intro c
    rw [hn, hsta]
    exact eq_count_update (h.num c) (hc c)
  · rw [hu, h.noUnderflow]

/-- A counter that is incremented when a station gets the bit it counts. -/
theorem inc8_eq_count {p : StaEntry → Bool} {t : StaTable cfg} {i : StaIdx cfg} {e : StaEntry}
    {n : ℕ} (hn : n = count p t.sta) (hold : p (t.sta i) = false) (hnew : p e = true) :
    inc8 n = count p (Function.update t.sta i e) := by
  have hlt := count_sta_lt p t
  rw [count_update_succ hold hnew, ← hn]
  exact inc8_of_lt (by omega)

/-- A counter that is decremented when a station loses the bit it counts. -/
theorem dec8_eq_count {p : StaEntry → Bool} {t : StaTable cfg} {i : StaIdx cfg} {e : StaEntry}
    {n : ℕ} (hn : n = count p t.sta) (hold : p (t.sta i) = true) (hnew : p e = false) :
    dec8 n = count p (Function.update t.sta i e) ∧ (n == 0) = false := by
  have hlt := count_sta_lt p t
  have hcount := count_update_pred (t := t.sta) (i := i) hold hnew
  have hpos : n ≠ 0 := by omega
  refine ⟨?_, by simpa using hpos⟩
  rw [hn, ← hcount]
  exact dec8_succ (by omega)

/-- What `ap_sta_set_authorized` does to the table: nothing, or the bit and the counter change. -/
theorem apStaSetAuthorized_cases (s : ApInfo cfg) (i : StaIdx cfg) (b : Bool) :
    (b = (s.table.sta i).authorized ∧ (apStaSetAuthorized s i b).table = s.table) ∨
    ((s.table.sta i).authorized = false ∧ b = true ∧ (apStaSetAuthorized s i b).table
      = { s.table with
          numStaAuthorized := inc8 s.table.numStaAuthorized
          sta := Function.update s.table.sta i { s.table.sta i with authorized := true } }) ∨
    ((s.table.sta i).authorized = true ∧ b = false ∧ (apStaSetAuthorized s i b).table
      = { s.table with
          numStaAuthorized := dec8 s.table.numStaAuthorized
          underflow := s.table.underflow || s.table.numStaAuthorized == 0
          sta := Function.update s.table.sta i { s.table.sta i with authorized := false } }) := by
  have hold : (s.table.sta i).authorized = (s.sta i).authorized := rfl
  unfold apStaSetAuthorized
  rw [hold]
  cases b <;> cases (s.sta i).authorized
  · exact .inl ⟨rfl, rfl⟩
  · refine .inr (.inr ⟨rfl, rfl, ?_⟩)
    rw [if_neg Bool.false_ne_true, if_neg Bool.false_ne_true, table_modSta]
    rfl
  · refine .inr (.inl ⟨rfl, rfl, ?_⟩)
    rw [if_neg (Ne.symm Bool.false_ne_true), if_pos rfl, table_modSta]
    rfl
  · exact .inl ⟨rfl, rfl⟩

theorem Tallies.apStaSetAuthorized {s : ApInfo cfg} (h : Tallies s.table) (i : StaIdx cfg)
    (b : Bool) : Tallies (apStaSetAuthorized s i b).table := by
  rcases apStaSetAuthorized_cases s i b with ⟨-, ht⟩ | ⟨hold, -, ht⟩ | ⟨hold, -, ht⟩ <;> rw [ht]
  · exact h
  · refine ⟨inc8_eq_count h.numStaAuthorized hold rfl, fun c => ?_, h.noUnderflow⟩
    exact eq_count_update (h.num c) rfl
  · obtain ⟨hdec, hpos⟩ := dec8_eq_count (i := i)
      (e := { s.table.sta i with authorized := false }) h.numStaAuthorized hold rfl
    refine ⟨hdec, fun c => ?_, ?_⟩
    · exact eq_count_update (h.num c) rfl
    · simp only [h.noUnderflow, hpos, Bool.or_self]

/-- What setting a counted bit does to the table. -/
theorem setCounted_cases (s : ApInfo cfg) (i : StaIdx cfg) (c : Counted) :
    (setCounted s i c).table = s.table ∨
    ((s.table.sta i).counted c = false ∧ (setCounted s i c).table
      = { s.table with
          num := Function.update s.table.num c (inc8 (s.table.num c))
          sta := Function.update s.table.sta i
            { s.table.sta i with
              counted := Function.update (s.table.sta i).counted c true } }) := by
  have hold : (s.table.sta i).counted c = (s.sta i).counted c := rfl
  unfold setCounted
  rw [hold]
  cases (s.sta i).counted c
  · refine .inr ⟨rfl, ?_⟩
    rw [if_neg Bool.false_ne_true, table_modSta]
    rfl
  · exact .inl rfl

/-- What clearing a counted bit does to the table. -/
theorem clearCounted_cases (s : ApInfo cfg) (i : StaIdx cfg) (c : Counted) :
    ((s.table.sta i).counted c = false ∧ (clearCounted s i c).table = s.table) ∨
    ((s.table.sta i).counted c = true ∧ (clearCounted s i c).table
      = { s.table with
          num := Function.update s.table.num c (dec8 (s.table.num c))
          underflow := s.table.underflow || s.table.num c == 0
          sta := Function.update s.table.sta i
            { s.table.sta i with
              counted := Function.update (s.table.sta i).counted c false } }) := by
  have hold : (s.table.sta i).counted c = (s.sta i).counted c := rfl
  unfold clearCounted
  rw [hold]
  cases (s.sta i).counted c
  · exact .inl ⟨rfl, rfl⟩
  · refine .inr ⟨rfl, ?_⟩
    rw [if_pos rfl, table_modSta]
    rfl

/-- The counters of the other bits do not mind. -/
theorem num_update {t : StaTable cfg} (h : Tallies t) {i : StaIdx cfg} {c : Counted} {b : Bool}
    {n : ℕ} (hn : n = count (·.counted c) (Function.update t.sta i
      { t.sta i with counted := Function.update (t.sta i).counted c b })) (c' : Counted) :
    Function.update t.num c n c' = count (·.counted c') (Function.update t.sta i
      { t.sta i with counted := Function.update (t.sta i).counted c b }) := by
  by_cases hc : c' = c
  · subst hc
    rwa [Function.update_self]
  · rw [Function.update_of_ne hc]
    exact eq_count_update (h.num c') (by simp [Function.update_of_ne hc])

theorem Tallies.setCounted {s : ApInfo cfg} (h : Tallies s.table) (i : StaIdx cfg) (c : Counted) :
    Tallies (setCounted s i c).table := by
  rcases setCounted_cases s i c with ht | ⟨hold, ht⟩ <;> rw [ht]
  · exact h
  · refine ⟨?_, num_update h (inc8_eq_count (h.num c) hold ?_), h.noUnderflow⟩
    · exact eq_count_update h.numStaAuthorized rfl
    · simp

theorem Tallies.clearCounted {s : ApInfo cfg} (h : Tallies s.table) (i : StaIdx cfg)
    (c : Counted) : Tallies (clearCounted s i c).table := by
  rcases clearCounted_cases s i c with ⟨-, ht⟩ | ⟨hold, ht⟩ <;> rw [ht]
  · exact h
  · obtain ⟨hdec, hpos⟩ := dec8_eq_count (i := i) (p := fun e => e.counted c)
      (e := { s.table.sta i with counted := Function.update (s.table.sta i).counted c false })
      (h.num c) hold (by simp)
    refine ⟨?_, num_update h hdec, ?_⟩
    · exact eq_count_update h.numStaAuthorized rfl
    · simp only [h.noUnderflow, hpos, Bool.or_self]

/-! ## The invariant and one station -/

/-- A station is authorised if it is there; the authorisation of any slot may be withdrawn. -/
theorem TableInv.apStaSetAuthorized {s : ApInfo cfg} (h : TableInv s.table) {i : StaIdx cfg}
    {b : Bool} (hb : b = true → (s.table.sta i).valid = true) :
    TableInv (apStaSetAuthorized s i b).table := by
  have ht := h.toTallies.apStaSetAuthorized i b
  rcases apStaSetAuthorized_cases s i b with ⟨-, he⟩ | ⟨-, hb', he⟩ | ⟨-, -, he⟩ <;> rw [he] at ht ⊢
  · exact h
  · refine h.update ht rfl rfl rfl rfl rfl rfl (h.aid_of_assoc i) fun hv => ?_
    exact absurd (hv.symm.trans (hb hb')) Bool.false_ne_true
  · refine h.update ht rfl rfl rfl rfl rfl rfl (h.aid_of_assoc i) fun hv => ?_
    exact ⟨rfl, (h.blank i hv).2.2⟩

theorem TableInv.setCounted {s : ApInfo cfg} (h : TableInv s.table) {i : StaIdx cfg}
    (hv : (s.table.sta i).valid = true) (c : Counted) : TableInv (setCounted s i c).table := by
  have ht := h.toTallies.setCounted i c
  rcases setCounted_cases s i c with he | ⟨-, he⟩ <;> rw [he] at ht ⊢
  · exact h
  · refine h.update ht rfl rfl rfl rfl rfl rfl (h.aid_of_assoc i) fun hv' => ?_
    exact absurd (hv'.symm.trans hv) Bool.false_ne_true

/-- A station is associated once it has an AID. -/
theorem TableInv.setAssoc {s : ApInfo cfg} (h : TableInv s.table) {i : StaIdx cfg}
    {f : Station cfg → Station cfg} {b : Bool}
    (hf : (f (s.sta i)).entry = { (s.sta i).entry with assoc := b })
    (hb : b = true → (s.table.sta i).aid ≠ 0) : TableInv (s.modSta i f).table := by
  rw [table_modSta, hf]
  refine h.update (h.toTallies.update rfl rfl (fun _ => rfl) rfl rfl rfl) rfl rfl rfl rfl rfl rfl hb
    fun hv => ?_
  exact ⟨(h.blank i hv).1, (h.blank i hv).2.2⟩

theorem Tallies.setPs {t : StaTable cfg} (h : Tallies t) (i : StaIdx cfg) (b : Bool) (n : ℕ) :
    Tallies (t.setPs i b n) :=
  h.update rfl rfl (fun _ => rfl) rfl rfl rfl

theorem TableInv.setPs {t : StaTable cfg} (h : TableInv t) (i : StaIdx cfg) (b : Bool) (n : ℕ) :
    TableInv (t.setPs i b n) := by
  refine h.update (h.toTallies.setPs i b n) rfl rfl rfl rfl rfl rfl (h.aid_of_assoc i) fun hv => ?_
  exact ⟨(h.blank i hv).1, (h.blank i hv).2.2⟩

theorem TableInv.drvRemove {s : ApInfo cfg} (h : TableInv s.table) (i : StaIdx cfg) :
    TableInv (drvRemove s i).table := by
  rw [drvRemove_table]
  split
  · exact h.setPs i _ _
  · exact h

/-! ## A station is freed -/

/-- Only station `i` has changed, and it keeps its AID. -/
structure Touches (i : StaIdx cfg) (t t' : StaTable cfg) : Prop where
  sta : ∀ j, j ≠ i → t'.sta j = t.sta j
  aid : (t'.sta i).aid = (t.sta i).aid
  numSta : t'.numSta = t.numSta
  staAid : t'.staAid = t.staAid

theorem Touches.refl (i : StaIdx cfg) (t : StaTable cfg) : Touches i t t :=
  ⟨fun _ _ => rfl, rfl, rfl, rfl⟩

theorem Touches.trans {i : StaIdx cfg} {t t' t'' : StaTable cfg} (h : Touches i t t')
    (h' : Touches i t' t'') : Touches i t t'' :=
  ⟨fun j hj => (h'.sta j hj).trans (h.sta j hj), h'.aid.trans h.aid, h'.numSta.trans h.numSta,
    h'.staAid.trans h.staAid⟩

theorem Touches.of_update {i : StaIdx cfg} {t t' : StaTable cfg} {e : StaEntry}
    (hsta : t'.sta = Function.update t.sta i e) (haid : e.aid = (t.sta i).aid)
    (hnum : t'.numSta = t.numSta) (hbits : t'.staAid = t.staAid) : Touches i t t' := by
  refine ⟨fun j hj => ?_, ?_, hnum, hbits⟩
  · rw [hsta, Function.update_of_ne hj]
  · rw [hsta, Function.update_self, haid]

theorem apStaSetAuthorized_touches (s : ApInfo cfg) (i : StaIdx cfg) (b : Bool) :
    Touches i s.table (apStaSetAuthorized s i b).table := by
  rcases apStaSetAuthorized_cases s i b with ⟨-, he⟩ | ⟨-, -, he⟩ | ⟨-, -, he⟩ <;> rw [he]
  · exact .refl i _
  · exact .of_update rfl rfl rfl rfl
  · exact .of_update rfl rfl rfl rfl

theorem drvRemove_touches (s : ApInfo cfg) (i : StaIdx cfg) :
    Touches i s.table (drvRemove s i).table := by
  rw [drvRemove_table]
  split
  · exact .of_update rfl rfl rfl rfl
  · exact .refl i _

theorem clearCounted_touches (s : ApInfo cfg) (i : StaIdx cfg) (c : Counted) :
    Touches i s.table (clearCounted s i c).table := by
  rcases clearCounted_cases s i c with ⟨-, he⟩ | ⟨-, he⟩ <;> rw [he]
  · exact .refl i _
  · exact .of_update rfl rfl rfl rfl

theorem clearCounted_authorized (s : ApInfo cfg) (i : StaIdx cfg) (c : Counted) :
    ((clearCounted s i c).table.sta i).authorized = (s.table.sta i).authorized := by
  rcases clearCounted_cases s i c with ⟨-, he⟩ | ⟨-, he⟩ <;> rw [he]
  simp

theorem clearCounted_counted (s : ApInfo cfg) (i : StaIdx cfg) (c c' : Counted) :
    ((clearCounted s i c).table.sta i).counted c'
      = if c' = c then false else (s.table.sta i).counted c' := by
  rcases clearCounted_cases s i c with ⟨hold, he⟩ | ⟨-, he⟩ <;> rw [he]
  · split
    · next hc => rw [hc, hold]
    · rfl
  · simp [Function.update_apply]

/-- The bits of `APStaInfo_free`: after the loop all of them are clear, and their counters right. -/
theorem clearCounted_foldl (i : StaIdx cfg) (l : List Counted) (s : ApInfo cfg)
    (h : Tallies s.table) :
    let s' := l.foldl (fun s c => clearCounted s i c) s
    Tallies s'.table ∧ Touches i s.table s'.table ∧
      (s'.table.sta i).authorized = (s.table.sta i).authorized ∧
      ∀ c, (s'.table.sta i).counted c = if c ∈ l then false else (s.table.sta i).counted c := by
  induction l generalizing s with
  | nil => exact ⟨h, .refl i _, rfl, fun c => by simp⟩
  | cons a l ih =>
    obtain ⟨ht, htouch, hauth, hcount⟩ := ih (clearCounted s i a) (h.clearCounted i a)
    refine ⟨ht, (clearCounted_touches s i a).trans htouch,
      hauth.trans (clearCounted_authorized s i a), fun c => ?_⟩
    rw [List.foldl_cons, hcount, clearCounted_counted]
    by_cases hl : c ∈ l <;> by_cases ha : c = a <;> simp [hl, ha]

theorem mem_countedBits (c : Counted) : c ∈ countedBits := by
  cases c <;> decide

theorem releaseAid_table (s : ApInfo cfg) (aid : ℕ) :
    (releaseAid s aid).table
      = { s.table with
          staAid := if 0 < aid then Function.update s.table.staAid (aid - 1) false
            else s.table.staAid } := by
  unfold releaseAid
  split <;> rfl

theorem decNumSta_table (s : ApInfo cfg) :
    (decNumSta s).table
      = { s.table with
          numSta := if 0 < s.table.numSta ∧ s.table.numSta ≤ cfg.maxAid then dec8 s.table.numSta
            else s.table.numSta } := by
  unfold decNumSta
  have hnum : s.table.numSta = s.numSta := rfl
  rw [hnum]
  split <;> rfl

/-- `APStaInfo_free` up to the point where the AID is given back. -/
theorem free_unauthorize {s : ApInfo cfg} (h : Tallies s.table) (i : StaIdx cfg) :
    let s' := drvRemove (apStaSetAuthorized
      (endSessions (s.modSta i fun st => { st with valid := false }) i) i false) i
    Tallies s'.table ∧ Touches i s.table s'.table ∧ (s'.table.sta i).authorized = false := by
  have hvalid :
      Tallies (endSessions (s.modSta i fun st => { st with valid := false }) i).table := by
    rw [endSessions_table, table_modSta]
    exact h.update rfl rfl (fun _ => rfl) rfl rfl rfl
  have htouch : Touches i s.table
      (endSessions (s.modSta i fun st => { st with valid := false }) i).table := by
    rw [endSessions_table, table_modSta]
    exact .of_update rfl rfl rfl rfl
  generalize endSessions (s.modSta i fun st => { st with valid := false }) i = s₁ at hvalid htouch
  have hauth : ((apStaSetAuthorized s₁ i false).table.sta i).authorized = false := by
    rcases apStaSetAuthorized_cases s₁ i false with ⟨hb, he⟩ | ⟨-, hb, -⟩ | ⟨-, -, he⟩
    · rw [he, ← hb]
    · exact absurd hb Bool.false_ne_true
    · rw [he]; simp
  refine ⟨?_, htouch.trans ((apStaSetAuthorized_touches s₁ i false).trans
    (drvRemove_touches _ i)), ?_⟩
  · rw [drvRemove_table]
    split
    · exact (hvalid.apStaSetAuthorized i false).setPs i _ _
    · exact hvalid.apStaSetAuthorized i false
  · rw [drvRemove_table]
    split
    · simpa [StaTable.setPs] using hauth
    · exact hauth

/-- What `APStaInfo_free` does to the table: the slot is blank, what the station held is given back,
and the counters stay right. -/
theorem apStaInfoFree_touches {s : ApInfo cfg} (h : Tallies s.table) {i : StaIdx cfg}
    (hv : (s.table.sta i).valid = true) :
    let t' := (apStaInfoFree s i).table
    Tallies t' ∧ t'.sta = Function.update s.table.sta i (resetStation : Station cfg).entry ∧
      t'.numSta = (if 0 < s.table.numSta ∧ s.table.numSta ≤ cfg.maxAid then dec8 s.table.numSta
        else s.table.numSta) ∧
      t'.staAid = if 0 < (s.table.sta i).aid
        then Function.update s.table.staAid ((s.table.sta i).aid - 1) false
        else s.table.staAid := by
  have hv' : (!(s.sta i).valid) = false := by
    change (!(s.table.sta i).valid) = false
    rw [hv]
    rfl
  unfold apStaInfoFree
  rw [if_neg (by rw [hv']; exact Bool.false_ne_true)]
  dsimp only
  obtain ⟨htally, htouch, hauth⟩ := free_unauthorize h i
  generalize drvRemove (apStaSetAuthorized
    (endSessions (s.modSta i fun st => { st with valid := false }) i) i false) i = s₁
    at htally htouch hauth ⊢
  have haid : (s₁.sta i).aid = (s.table.sta i).aid := htouch.aid
  rw [haid]
  have hgive : Tallies (decNumSta (releaseAid s₁ (s.table.sta i).aid)).table := by
    rw [decNumSta_table, releaseAid_table]
    exact ⟨htally.numStaAuthorized, htally.num, htally.noUnderflow⟩
  obtain ⟨htally', htouch', hauth', hcounted⟩ := clearCounted_foldl i countedBits _ hgive
  generalize countedBits.foldl (fun s c => clearCounted s i c)
    (decNumSta (releaseAid s₁ (s.table.sta i).aid)) = s₂ at htally' htouch' hauth' hcounted ⊢
  have hsta : ∀ j, j ≠ i → s₂.table.sta j = s.table.sta j := by
    intro j hj
    rw [htouch'.sta j hj, decNumSta_table, releaseAid_table]
    exact htouch.sta j hj
  have hend : (endStaTimer s₂ i).table = s₂.table := rfl
  rw [table_modSta, hend]
  refine ⟨htally'.update rfl ?_ (fun c => ?_) rfl rfl rfl, ?_, ?_, ?_⟩
  · rw [hauth', decNumSta_table, releaseAid_table]
    exact hauth.symm
  · rw [hcounted, if_pos (mem_countedBits c)]
    rfl
  · funext j
    by_cases hj : j = i
    · subst hj; simp
    · simp [Function.update_of_ne hj, hsta j hj]
  · change s₂.table.numSta = _
    rw [htouch'.numSta, decNumSta_table, releaseAid_table]
    simp only [htouch.numSta]
  · change s₂.table.staAid = _
    rw [htouch'.staAid, decNumSta_table, releaseAid_table]
    simp only [htouch.staAid]

/-- The AIDs that are left when a station gives back its own. -/
theorem staAid_release {t : StaTable cfg} (h : TableInv t) (i : StaIdx cfg) (k : ℕ) :
    (if 0 < (t.sta i).aid then Function.update t.staAid ((t.sta i).aid - 1) false
      else t.staAid) k = true ↔ ∃ j, j ≠ i ∧ (t.sta j).aid = k + 1 := by
  have hothers : (∃ j, (t.sta j).aid = k + 1) ∧ (t.sta i).aid ≠ k + 1 ↔
      ∃ j, j ≠ i ∧ (t.sta j).aid = k + 1 := by
    constructor
    · rintro ⟨⟨j, hj⟩, hi⟩
      exact ⟨j, fun hji => hi (hji ▸ hj), hj⟩
    · rintro ⟨j, hji, hj⟩
      refine ⟨⟨j, hj⟩, fun hi => hji ?_⟩
      exact h.aid_inj j i (hj.trans hi.symm) (by omega)
  rw [← hothers, ← h.staAid k]
  split
  · by_cases hk : k = (t.sta i).aid - 1
    · subst hk
      simp
      omega
    · rw [Function.update_of_ne hk]
      simp
      omega
  · simp
    omega

theorem TableInv.apStaInfoFree {s : ApInfo cfg} (h : TableInv s.table) (i : StaIdx cfg) :
    TableInv (apStaInfoFree s i).table := by
  cases hv : (s.table.sta i).valid with
  | false =>
    have hv' : (s.sta i).valid = false := hv
    simpa [Ap.apStaInfoFree, hv'] using h
  | true =>
    obtain ⟨htally, hsta, hnum, haid⟩ := apStaInfoFree_touches h.toTallies hv
    generalize (Ap.apStaInfoFree s i).table = t' at htally hsta hnum haid
    have hself : t'.sta i = (resetStation : Station cfg).entry := by
      rw [hsta, Function.update_self]
    have hother : ∀ j, j ≠ i → t'.sta j = s.table.sta j := by
      intro j hj
      rw [hsta, Function.update_of_ne hj]
    -- a station that is there, or has an AID, is not the one that was freed
    have hne : ∀ j, (t'.sta j).valid = true ∨ (t'.sta j).aid ≠ 0 → j ≠ i := by
      rintro j hj rfl
      rw [hself] at hj
      rcases hj with hj | hj
      · exact absurd hj Bool.false_ne_true
      · exact hj rfl
    refine ⟨htally, ?_, fun j hj => ?_, fun k => ?_, fun j k hjk hj => ?_, fun j hj => ?_,
      fun j k hj hk hjk => ?_⟩
    · have hpos := count_pos (p := StaEntry.valid) hv
      have hle := count_le (fun e : StaEntry => e.valid) s.table.sta
      rw [Fintype.card_fin] at hle
      rw [hnum, hsta, if_pos ⟨h.numSta ▸ hpos, h.numSta ▸ hle⟩]
      exact (dec8_eq_count h.numSta hv rfl).1
    · by_cases hji : j = i
      · subst hji
        rw [hself]
        exact ⟨rfl, rfl, fun _ => rfl⟩
      · rw [hother j hji] at hj ⊢
        exact h.blank j hj
    · rw [haid, staAid_release h i k]
      constructor
      · rintro ⟨j, hji, hj⟩
        exact ⟨j, by rw [hother j hji, hj]⟩
      · rintro ⟨j, hj⟩
        have hji := hne j (.inr (by omega))
        exact ⟨j, hji, by rw [← hother j hji, hj]⟩
    · have hji := hne j (.inr hj)
      have hki := hne k (.inr (hjk ▸ hj))
      rw [hother j hji] at hj hjk
      rw [hother k hki] at hjk
      exact h.aid_inj j k hjk hj
    · by_cases hji : j = i
      · subst hji
        rw [hself] at hj
        exact absurd hj Bool.false_ne_true
      · rw [hother j hji] at hj ⊢
        exact h.aid_of_assoc j hj
    · have hji := hne j (.inl hj)
      have hki := hne k (.inl hk)
      rw [hother j hji] at hj hjk
      rw [hother k hki] at hk hjk
      exact h.addr_inj j k hj hk hjk

theorem tableInv_keptByRemoval : KeptByRemoval fun s : ApInfo cfg => TableInv s.table where
  modSta h _ hf := by rwa [table_modSta_of_eq (entry_of_core hf)]
  setTimeout h i t := by rwa [table_modSta_of_eq rfl]
  setDrv h _ := h
  clearAssoc h _ := h.setAssoc rfl nofun
  clearAuth h _ := h.setAssoc rfl nofun
  sendMgmtFrame h da := by rwa [table_of_ctl (sendMgmtFrame_ctl _ da)]
  withdraw h i := h.apStaSetAuthorized nofun
  drvRemove h i := h.drvRemove i
  apStaInfoFree h i := h.apStaInfoFree i

/-! ## A station joins -/

/-- No station has joined: who is there was there before, under the same address. -/
def NoneJoined (t t' : StaTable cfg) : Prop :=
  ∀ j, (t'.sta j).valid = true → (t.sta j).valid = true ∧ (t'.sta j).addr = (t.sta j).addr

theorem NoneJoined.refl (t : StaTable cfg) : NoneJoined t t := fun _ hj => ⟨hj, rfl⟩

theorem NoneJoined.trans {t t' t'' : StaTable cfg} (h : NoneJoined t t') (h' : NoneJoined t' t'') :
    NoneJoined t t'' := fun j hj =>
  ⟨(h j (h' j hj).1).1, (h' j hj).2.trans (h j (h' j hj).1).2⟩

theorem NoneJoined.of_update {t t' : StaTable cfg} {i : StaIdx cfg} {e : StaEntry}
    (hsta : t'.sta = Function.update t.sta i e)
    (he : e.valid = true → (t.sta i).valid = true ∧ e.addr = (t.sta i).addr) :
    NoneJoined t t' := by
  intro j hj
  rw [hsta] at hj ⊢
  by_cases hji : j = i
  · subst hji
    rw [Function.update_self] at hj ⊢
    exact he hj
  · rw [Function.update_of_ne hji] at hj ⊢
    exact ⟨hj, rfl⟩

theorem changeStaDisassocToDeauth_noneJoined (s : ApInfo cfg) (i : StaIdx cfg)
    (timerCreat : Bool) : NoneJoined s.table (changeStaDisassocToDeauth s i timerCreat).table := by
  have hauth : NoneJoined s.table (apStaSetAuthorized s i false).table := by
    rcases apStaSetAuthorized_cases s i false with ⟨-, he⟩ | ⟨-, -, he⟩ | ⟨-, -, he⟩ <;> rw [he]
    · exact .refl _
    · exact .of_update rfl fun hv => ⟨hv, rfl⟩
    · exact .of_update rfl fun hv => ⟨hv, rfl⟩
  have hassoc : ∀ s : ApInfo cfg,
      NoneJoined s.table (s.modSta i fun st => { st with assoc := false }).table := by
    intro s
    rw [table_modSta]
    exact .of_update rfl fun hv => ⟨hv, rfl⟩
  have hdrv : ∀ s : ApInfo cfg, NoneJoined s.table (drvRemove s i).table := by
    intro s
    rw [drvRemove_table]
    split
    · exact .of_update rfl fun hv => ⟨hv, rfl⟩
    · exact .refl _
  unfold changeStaDisassocToDeauth
  extract_lets s₁ s₂
  have hall : NoneJoined s.table s₂.table := hauth.trans ((hassoc _).trans (hdrv _))
  split
  · have htimer : (createStaTimer (endStaTimer
        (s₂.modSta i fun st => { st with timeoutNext := .deauth }) i) i).table = s₂.table :=
      table_modSta_of_eq (f := fun st => { st with timeoutNext := .deauth }) rfl
    rwa [htimer]
  · exact hall

theorem apStaInfoFree_noneJoined {s : ApInfo cfg} (h : Tallies s.table) (i : StaIdx cfg) :
    NoneJoined s.table (apStaInfoFree s i).table := by
  cases hv : (s.table.sta i).valid with
  | false =>
    have hv' : (s.sta i).valid = false := hv
    simpa [Ap.apStaInfoFree, hv'] using NoneJoined.refl s.table
  | true =>
    obtain ⟨-, hsta, -⟩ := apStaInfoFree_touches h hv
    exact .of_update hsta fun hr => absurd hr Bool.false_ne_true

theorem removeSilent_noneJoined {s : ApInfo cfg} (h : TableInv s.table) (i : StaIdx cfg) :
    NoneJoined s.table (removeSilent s i).table := by
  have hchange := tableInv_keptByRemoval.changeStaDisassocToDeauth h i false
  have hnone := changeStaDisassocToDeauth_noneJoined s i false
  unfold removeSilent
  extract_lets s₁ s₂
  have hsent : (sendMgmtFrame s₂ (s₂.sta i).addr).table
      = (changeStaDisassocToDeauth s i false).table := by
    rw [table_of_ctl (sendMgmtFrame_ctl _ _)]
    exact table_modSta_of_eq (f := fun st => { st with timeoutNext := .deauth }) rfl
  rw [← hsent] at hchange hnone
  exact hnone.trans (apStaInfoFree_noneJoined hchange.toTallies i)

/-- Who `APStaInfo_FindStaByAddr` does not find is not there. -/
theorem findStaByAddr_none {s : ApInfo cfg} {mac : EtherAddr} (h : findStaByAddr s mac = none)
    (i : StaIdx cfg) (hv : (s.table.sta i).valid = true) : (s.table.sta i).addr ≠ mac := by
  have hp := List.find?_eq_none.mp h i (List.mem_finRange i)
  intro ha
  have hv' : (s.sta i).valid = true := hv
  have ha' : (s.sta i).addr = mac := ha
  simp [hv', ha'] at hp

/-- A new station takes a blank slot. -/
theorem TableInv.join {t : StaTable cfg} (h : TableInv t) {i : StaIdx cfg} {addr : EtherAddr}
    (hv : (t.sta i).valid = false)
    (hnew : ∀ j, (t.sta j).valid = true → (t.sta j).addr ≠ addr) :
    TableInv { t with
      numSta := inc8 t.numSta
      sta := Function.update t.sta i { t.sta i with valid := true, addr := addr } } := by
  generalize ht : ({ t with
      numSta := inc8 t.numSta
      sta := Function.update t.sta i { t.sta i with valid := true, addr := addr } } :
    StaTable cfg) = t'
  have hsta : t'.sta = Function.update t.sta i { t.sta i with valid := true, addr := addr } := by
    rw [← ht]
  have haids : ∀ j, (t'.sta j).aid = (t.sta j).aid := hsta ▸ apply_update_of_eq _ rfl
  have hassoc : ∀ j, (t'.sta j).assoc = (t.sta j).assoc := hsta ▸ apply_update_of_eq _ rfl
  have hself : t'.sta i = { t.sta i with valid := true, addr := addr } := by
    rw [hsta, Function.update_self]
  have hother : ∀ j, j ≠ i → t'.sta j = t.sta j := by
    intro j hj
    rw [hsta, Function.update_of_ne hj]
  refine ⟨ht ▸ h.toTallies.update rfl rfl (fun _ => rfl) rfl rfl rfl, ?_, fun j hj => ?_,
    fun k => ?_, fun j k => ?_, fun j => ?_, fun j k hj hk hjk => ?_⟩
  · rw [← ht]
    exact inc8_eq_count h.numSta hv rfl
  · by_cases hji : j = i
    · subst hji
      rw [hself] at hj
      exact absurd hj (Ne.symm Bool.false_ne_true)
    · rw [hother j hji] at hj ⊢
      exact h.blank j hj
  · rw [← ht]
    exact (h.staAid k).trans (exists_congr fun j => by rw [← haids j, ← ht])
  · rw [haids, haids]
    exact h.aid_inj j k
  · rw [haids, hassoc]
    exact h.aid_of_assoc j
  · by_cases hji : j = i <;> by_cases hki : k = i
    · rw [hji, hki]
    · subst hji
      rw [hother k hki] at hk hjk
      rw [hself] at hjk
      exact absurd hjk.symm (hnew k hk)
    · subst hki
      rw [hother j hji] at hj hjk
      rw [hself] at hjk
      exact absurd hjk (hnew j hj)
    · rw [hother j hji] at hj hjk
      rw [hother k hki] at hk hjk
      exact h.addr_inj j k hj hk hjk

/-- Removing silent stations lets nobody in. -/
theorem evictSilent_noneJoined {s : ApInfo cfg} (h : TableInv s.table) :
    NoneJoined s.table (evictSilent s).table := by
  unfold evictSilent
  extract_lets first s₁
  obtain ⟨h₁, hj₁⟩ : TableInv s₁.table ∧ NoneJoined s.table s₁.table := by
    dsimp only [s₁]
    split
    · exact ⟨tableInv_keptByRemoval.removeSilent h first, removeSilent_noneJoined h first⟩
    · exact ⟨h, .refl _⟩
  split
  · split
    · next i _ => exact hj₁.trans (removeSilent_noneJoined h₁ i)
    · exact hj₁
  · exact hj₁

/-- `APStaInfo_add` finds the station or lets it join. -/
theorem TableInv.apStaInfoAdd {s : ApInfo cfg} (h : TableInv s.table) (addr : EtherAddr) :
    TableInv (apStaInfoAdd s addr).2.table := by
  have hevict := tableInv_keptByRemoval.evictSilent h
  rcases apStaInfoAdd_cases s addr with ⟨i, -, he⟩ | ⟨-, -, he⟩ | ⟨i, hnone, hi, he⟩ <;> rw [he]
  · exact h
  · exact hevict
  · have hfree := getNewSta_valid hi
    have hj := evictSilent_noneJoined h
    have hnew : ∀ j, ((evictSilent s).table.sta j).valid = true →
        ((evictSilent s).table.sta j).addr ≠ addr := by
      intro j hv
      rw [(hj j hv).2]
      exact findStaByAddr_none hnone j (hj j hv).1
    dsimp only [takeSlot]
    rw [table_modSta]
    exact hevict.join hfree hnew

/-! ## A station is associated -/

/-- A station that is there and has an AID. -/
structure Seated (t : StaTable cfg) (i : StaIdx cfg) : Prop where
  inv : TableInv t
  valid : (t.sta i).valid = true
  aid : (t.sta i).aid ≠ 0

/-- The AIDs when a station without one has taken its own. -/
theorem staAid_take {t : StaTable cfg} (h : TableInv t) {i : StaIdx cfg}
    (hzero : (t.sta i).aid = 0) {j : ℕ} (k : ℕ) :
    Function.update t.staAid j true k = true ↔ k = j ∨ ∃ l, l ≠ i ∧ (t.sta l).aid = k + 1 := by
  by_cases hkj : k = j
  · subst hkj
    simp
  · rw [Function.update_of_ne hkj, h.staAid k]
    constructor
    · rintro ⟨l, hl⟩
      refine .inr ⟨l, ?_, hl⟩
      rintro rfl
      omega
    · rintro (hk | ⟨l, -, hl⟩)
      · exact absurd hk hkj
      · exact ⟨l, hl⟩

/-- A station takes an AID that nobody holds. -/
theorem TableInv.seat {t : StaTable cfg} (h : TableInv t) {i : StaIdx cfg} {j : ℕ}
    (hv : (t.sta i).valid = true) (hzero : (t.sta i).aid = 0) (hfree : t.staAid j = false) :
    Seated { t with
      staAid := Function.update t.staAid j true
      sta := Function.update t.sta i { t.sta i with aid := j + 1 } } i := by
  generalize ht : ({ t with
      staAid := Function.update t.staAid j true
      sta := Function.update t.sta i { t.sta i with aid := j + 1 } } : StaTable cfg) = t'
  have hsta : t'.sta = Function.update t.sta i { t.sta i with aid := j + 1 } := by rw [← ht]
  have hvalid : ∀ k, (t'.sta k).valid = (t.sta k).valid := hsta ▸ apply_update_of_eq _ rfl
  have haddr : ∀ k, (t'.sta k).addr = (t.sta k).addr := hsta ▸ apply_update_of_eq _ rfl
  have hassoc : ∀ k, (t'.sta k).assoc = (t.sta k).assoc := hsta ▸ apply_update_of_eq _ rfl
  have hself : (t'.sta i).aid = j + 1 := by
    rw [hsta, Function.update_self]
  have hother : ∀ k, k ≠ i → t'.sta k = t.sta k := by
    intro k hk
    rw [hsta, Function.update_of_ne hk]
  -- nobody else holds the new AID
  have hnew : ∀ k, k ≠ i → (t'.sta k).aid ≠ j + 1 := by
    intro k hk hkj
    rw [hother k hk] at hkj
    exact absurd ((h.staAid j).mpr ⟨k, hkj⟩) (by rw [hfree]; exact Bool.false_ne_true)
  refine ⟨⟨ht ▸ h.toTallies.update rfl rfl (fun _ => rfl) rfl rfl rfl, ?_, fun k hk => ?_,
    fun k => ?_, fun k l hkl hk => ?_, fun k hk => ?_, fun k l => ?_⟩, (hvalid i).trans hv, ?_⟩
  · rw [← ht]
    exact eq_count_update h.numSta rfl
  · rw [hvalid] at hk
    have hki : k ≠ i := by
      rintro rfl
      exact absurd (hk.symm.trans hv) Bool.false_ne_true
    rw [hother k hki]
    exact h.blank k hk
  · have hbits : t'.staAid = Function.update t.staAid j true := by rw [← ht]
    rw [hbits, staAid_take h hzero k]
    constructor
    · rintro (rfl | ⟨l, hli, hl⟩)
      · exact ⟨i, hself⟩
      · exact ⟨l, by rw [hother l hli, hl]⟩
    · rintro ⟨l, hl⟩
      by_cases hli : l = i
      · subst hli
        exact .inl (by omega)
      · exact .inr ⟨l, hli, by rw [← hother l hli, hl]⟩
  · by_cases hki : k = i <;> by_cases hli : l = i
    · rw [hki, hli]
    · rw [hki, hself] at hkl
      exact absurd hkl.symm (hnew l hli)
    · rw [hli, hself] at hkl
      exact absurd hkl (hnew k hki)
    · rw [hother k hki] at hk hkl
      rw [hother l hli] at hkl
      exact h.aid_inj k l hkl hk
  · rw [hassoc] at hk
    by_cases hki : k = i
    · subst hki
      omega
    · rw [hother k hki]
      exact h.aid_of_assoc k hk
  · rw [hvalid, hvalid, haddr, haddr]
    exact h.addr_inj k l
  · omega

theorem TableInv.hostapdGetAid {s s' : ApInfo cfg} (h : TableInv s.table) {i : StaIdx cfg}
    (hv : (s.table.sta i).valid = true) (he : hostapdGetAid s i = some s') :
    Seated s'.table i := by
  unfold Ap.hostapdGetAid at he
  split at he
  · next haid =>
    cases he
    exact ⟨h, hv, Nat.pos_iff_ne_zero.mp haid⟩
  · next haid =>
    split at he
    · cases he
    · next j hj =>
      have hfree : s.staAid j = false := by simpa using List.find?_some hj
      have hzero : (s.sta i).aid = 0 := by omega
      cases he
      rw [table_modSta]
      exact h.seat hv hzero hfree

theorem Seated.setCounted {s : ApInfo cfg} {i : StaIdx cfg} (h : Seated s.table i) (c : Counted) :
    Seated (setCounted s i c).table i := by
  refine ⟨h.inv.setCounted h.valid c, ?_, ?_⟩ <;>
    rcases setCounted_cases s i c with he | ⟨-, he⟩ <;> rw [he]
  · exact h.valid
  · simpa using h.valid
  · exact h.aid
  · simpa using h.aid

theorem Seated.apStaSetAuthorized {s : ApInfo cfg} {i : StaIdx cfg} (h : Seated s.table i)
    (b : Bool) : Seated (apStaSetAuthorized s i b).table i := by
  refine ⟨h.inv.apStaSetAuthorized fun _ => h.valid, ?_, ?_⟩ <;>
    rcases apStaSetAuthorized_cases s i b with ⟨-, he⟩ | ⟨-, -, he⟩ | ⟨-, -, he⟩ <;> rw [he]
  · exact h.valid
  · simpa using h.valid
  · simpa using h.valid
  · exact h.aid
  · simpa using h.aid
  · simpa using h.aid

theorem Seated.setAssoc {s : ApInfo cfg} {i : StaIdx cfg} (h : Seated s.table i) :
    Seated (s.modSta i fun st => { st with assoc := true }).table i := by
  refine ⟨h.inv.setAssoc rfl fun _ => h.aid, ?_, ?_⟩ <;> rw [table_modSta]
  · simp only [Function.update_self]
    exact h.valid
  · simp only [Function.update_self]
    exact h.aid

/-- What is recorded of an accepted station: each step keeps it in its seat. -/
theorem Seated.recordAssoc {s : ApInfo cfg} {i : StaIdx cfg} (h : Seated s.table i)
    (r : AssocReq) : Seated (recordAssoc s i r).table i :=
  recordAssoc_rule (P := fun s => Seated s.table i) (Q := fun s => Seated s.table i)
    (fun hs hf _ => by rwa [table_modSta_of_eq (entry_of_core hf)]) (fun hs c => hs.setCounted c)
    (fun hs => hs.setAssoc) (fun hs => hs.apStaSetAuthorized true)
    (fun hs => by rwa [table_modSta_of_eq rfl]) h r

/-- `handle_assoc` between the lookup and the label `fail`. -/
theorem TableInv.tryAssoc {s : ApInfo cfg} (h : TableInv s.table) {i : StaIdx cfg}
    (hv : (s.table.sta i).valid = true) (r : AssocReq) : TableInv (tryAssoc s i r).2.table := by
  have hchecked : (s.modSta i fun _ => (checkAssocIes (s.sta i) r.elems).2).table = s.table :=
    table_modSta_of_eq (entry_of_core (checkAssocIes_core _ _))
  have h₁ := hchecked ▸ h
  rcases tryAssoc_cases s i r with ⟨-, he | he⟩ | ⟨s', hget, he⟩ <;> rw [he]
  · exact h
  · exact h₁
  · rw [apSocCmdStaOper_table]
    exact ((h₁.hostapdGetAid (hchecked ▸ hv) hget).recordAssoc r).inv

/-! ## Runs -/

/-- Every operation keeps the counters right. -/
theorem tableInv_kept : Kept (fun _ => True) fun s : ApInfo cfg => TableInv s.table where
  toKeptByRemoval := tableInv_keptByRemoval
  grant h hv _ := h.apStaSetAuthorized fun _ => hv
  apStaInfoAdd h addr := h.apStaInfoAdd addr
  authenticate h _ r := by rwa [table_modSta_of_eq (authenticate_entry _ r)]
  tryAssoc h hv _ r := h.tryAssoc hv r
  apStaPsStart h _ _ := by
    rw [apStaPsStart_table]
    exact h.setPs _ _ _
  apStaPsEnd h _ := by
    rw [apStaPsEnd_table]
    split
    · exact h.setPs _ _ _
    · exact h
  recalcTimGenBeacon h i := by rwa [table_of_ctl (recalcTimGenBeacon_ctl _ i)]
  staPsDeliverPollResponse h i := by rwa [table_of_ctl (staPsDeliverPollResponse_ctl _ i)]
  staPsDeliverUapsd h i := by rwa [table_of_ctl (staPsDeliverUapsd_ctl _ i)]
  dataCouldBeSend h now f bAPFrame pollFlag := by
    rwa [table_of_ctl (dataCouldBeSend_ctl now _ f bAPFrame pollFlag)]
  staInfoCleanup h now := by rwa [table_of_ctl (staInfoCleanup_ctl now _)]

/-- The counters, the AIDs and the addresses of a state, as a reader of the table wants them. -/
structure StationsCounted (s : ApInfo cfg) : Prop where
  numSta : s.numSta = count (·.valid) s.sta
  numSta_le : s.numSta ≤ cfg.maxAid
  numStaAuthorized : s.numStaAuthorized = count (·.authorized) s.sta
  /-- One counter for each counted bit; only stations that are there have one. -/
  num : ∀ c, s.num c = count (fun st => st.valid && st.counted c) s.sta
  /-- `sta_aid` is the set of the AIDs that stations hold. -/
  staAid : ∀ j, s.staAid j = true ↔ ∃ i, (s.sta i).valid = true ∧ (s.sta i).aid = j + 1
  /-- An associated station has an AID of its own. -/
  aid_of_assoc : ∀ i, (s.sta i).assoc = true → (s.sta i).aid ≠ 0
  aid_inj : ∀ i j, (s.sta i).aid = (s.sta j).aid → (s.sta i).aid ≠ 0 → i = j
  addr_inj : ∀ i j, (s.sta i).valid = true → (s.sta j).valid = true →
    (s.sta i).addr = (s.sta j).addr → i = j
  noUnderflow : s.underflow = false

theorem TableInv.stationsCounted {s : ApInfo cfg} (h : TableInv s.table) : StationsCounted s := by
  have hblank : ∀ i c, ((s.sta i).valid && (s.sta i).counted c) = (s.sta i).counted c := by
    intro i c
    cases hv : (s.sta i).valid
    · rw [Bool.false_and]
      exact ((h.blank i hv).2.2 c).symm
    · rw [Bool.true_and]
  refine ⟨h.numSta, ?_, h.numStaAuthorized, fun c => ?_, fun j => ?_, h.aid_of_assoc, h.aid_inj,
    h.addr_inj, h.noUnderflow⟩
  · have hle := count_le (fun e : StaEntry => e.valid) s.table.sta
    rw [Fintype.card_fin, ← h.numSta] at hle
    exact hle
  · exact (h.num c).trans (count_congr fun i => (hblank i c).symm)
  · rw [show s.staAid j = s.table.staAid j from rfl, h.staAid j]
    refine exists_congr fun i => ⟨fun hi => ⟨?_, hi⟩, fun hi => hi.2⟩
    cases hv : (s.sta i).valid
    · have hz := (h.blank i hv).2.1
      omega
    · rfl

/-- In every state the access point reaches, whatever requests, frames and timers come in whatever
order, its counters are the numbers of stations they stand for, and AIDs and addresses tell the
stations apart. -/
theorem apRun_stationsCounted (cfg : ApCfg) (es : List (ApEvent cfg)) :
    StationsCounted (Machine.run apStep (initAp cfg) es).1 :=
  TableInv.stationsCounted (tableInv_kept.run tableInv_initAp es)

end Fullmac.Ap
