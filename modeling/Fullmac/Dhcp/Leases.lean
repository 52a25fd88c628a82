import Mathlib.Tactic.Common
import Fullmac.Lib.Machine

/-!
# The leases of the server

Reference: `host/app/netapp/udhcp/dhcpd.h`, `struct dyn_lease`;
`host/app/netapp/udhcp/leases.c`, `oldest_expired_lease`, `clear_leases`, `add_lease`,
`find_lease_by_mac`, `find_lease_by_nip`; `host/app/netapp/udhcp/dhcpd.c`, `udhcpd_run`, what a
decline and a release do to a lease.

The table has a fixed number of entries, and an entry that has expired may be taken for another
client. No address and no client stands in it twice, however the table is used, and a lease that has
not expired is not taken from its client (`leases_of_run`).
-/

namespace Fullmac.Dhcp

open Machine (run run_induction)

/-- `lease_mac`. -/
abbrev LeaseMac := Vector UInt8 6

/-- The address of nobody. -/
def nullMac : LeaseMac := .replicate 6 0

/-- `struct dyn_lease`. -/
structure DynLease where
  expires : ℕ
  leaseNip : ℕ
  leaseMac : LeaseMac
  hostname : List UInt8
deriving DecidableEq, Repr

/-- An entry of zeros. -/
def DynLease.blank : DynLease := ⟨0, 0, nullMac, []⟩

/-- The loop of `oldest_expired_lease` over the entries from number `i` on, with `oldest_time` and
`oldest_lease`. -/
def oldestFrom : List DynLease → ℕ → ℕ → Option ℕ → Option ℕ
  | [], _, _, oldest => oldest
  | l :: ls, i, time, oldest =>
    if l.expires < time then oldestFrom ls (i + 1) l.expires (some i)
    else oldestFrom ls (i + 1) time oldest

/-- `oldest_expired_lease`. -/
def oldestExpiredLease (leases : List DynLease) (now : ℕ) : Option ℕ := oldestFrom leases 0 now none

/-- What `clear_leases` looks for. -/
def Clears (chaddr : Option LeaseMac) (yiaddr : ℕ) (l : DynLease) : Prop :=
  chaddr = some l.leaseMac ∨ yiaddr ≠ 0 ∧ l.leaseNip = yiaddr

instance (chaddr : Option LeaseMac) (yiaddr : ℕ) (l : DynLease) :
    Decidable (Clears chaddr yiaddr l) :=
  inferInstanceAs (Decidable (_ ∨ _))

/-- `clear_leases`. -/
def clearLeases (chaddr : Option LeaseMac) (yiaddr : ℕ) (leases : List DynLease) :
    List DynLease :=
  leases.map fun l => if Clears chaddr yiaddr l then .blank else l

/-- The name that is kept: up to 20 bytes, of those that can be printed. -/
def keptName (bs : List UInt8) : List UInt8 :=
  ((bs.take 20).takeWhile (· ≠ 0)).map fun c => if c < 32 ∨ 126 < c then 94 else c

/-- `add_lease` at the time `now`. With `hostname` come the bytes from there on, one more than
`hostname_len`. -/
def addLease (leases : List DynLease) (now : ℕ) (chaddr : Option LeaseMac) (yiaddr leasetime : ℕ)
    (hostname : Option (List UInt8)) : List DynLease × Option ℕ :=
  let leases := clearLeases chaddr yiaddr leases
  match oldestExpiredLease leases now with
  | none => (leases, none)
  | some i =>
    (leases.set i {
      expires := (now + leasetime) % 4294967296
      leaseNip := yiaddr
      leaseMac := chaddr.getD nullMac
      hostname := hostname.elim [] keptName }, some i)

/-- `find_lease_by_mac`. -/
def findLeaseByMac (leases : List DynLease) (mac : LeaseMac) : Option ℕ :=
  leases.findIdx? fun l => l.leaseMac = mac

/-- `find_lease_by_nip`. -/
def findLeaseByNip (leases : List DynLease) (nip : ℕ) : Option ℕ :=
  leases.findIdx? fun l => l.leaseNip = nip

/-- What is done to the table: `add_lease`; and a decline or a release of the address `nip`, by a
client whose lease is in the table. -/
inductive LeaseOp
  | add (now : ℕ) (chaddr : Option LeaseMac) (yiaddr leasetime : ℕ)
      (hostname : Option (List UInt8))
  | decline (now : ℕ) (chaddr : LeaseMac) (nip declineTime : ℕ)
  | release (now : ℕ) (chaddr : LeaseMac) (nip : ℕ)

/-- The entry of an address that is in use: it is kept, but for nobody. -/
def DynLease.declined (l : DynLease) (now declineTime : ℕ) : DynLease :=
  { l with expires := (now + declineTime) % 4294967296, leaseMac := nullMac }

def DynLease.released (l : DynLease) (now : ℕ) : DynLease := { l with expires := now }

/-- The lease of a client is changed, if it is for this address. -/
def changeLease (leases : List DynLease) (chaddr : LeaseMac) (nip : ℕ)
    (f : DynLease → DynLease) : List DynLease :=
  match findLeaseByMac leases chaddr with
  | none => leases
  | some i => leases.modify i fun l => if l.leaseNip = nip then f l else l

/-- One use of the table, and the entry that `add_lease` returns. -/
def leaseStep (leases : List DynLease) : LeaseOp → List DynLease × List (Option ℕ)
  | .add now chaddr yiaddr leasetime hostname =>
    let r := addLease leases now chaddr yiaddr leasetime hostname
    (r.1, [r.2])
  | .decline now chaddr nip declineTime =>
    (changeLease leases chaddr nip fun l => l.declined now declineTime, [])
  | .release now chaddr nip =>
    (changeLease leases chaddr nip fun l => l.released now, [])

/-! ## The oldest lease -/

variable {leases : List DynLease} {now time i j : ℕ} {l : DynLease} {chaddr : Option LeaseMac}
  {yiaddr leasetime : ℕ} {hostname : Option (List UInt8)}

/-- What the loop returns was found before, or is an entry that is older than all before it. -/
theorem oldestFrom_cases (ls : List DynLease) (i time : ℕ) (oldest : Option ℕ) :
    oldestFrom ls i time oldest = oldest ∧ (∀ l ∈ ls, time ≤ l.expires) ∨
      ∃ k l, ls[k]? = some l ∧ oldestFrom ls i time oldest = some (i + k) ∧ l.expires < time ∧
        ∀ l' ∈ ls, l.expires ≤ l'.expires := by
  induction ls generalizing i time oldest with
  | nil => exact .inl ⟨rfl, fun l hl => absurd hl List.not_mem_nil⟩
  | cons a ls ih =>
    rw [oldestFrom]
    split
    case isTrue hlt =>
      obtain ⟨heq, hall⟩ | ⟨k, l, hk, heq, hl, hall⟩ := ih (i + 1) a.expires (some i)
      · exact .inr ⟨0, a, rfl, heq, hlt, List.forall_mem_cons.mpr ⟨Nat.le_refl _, hall⟩⟩
      · refine .inr ⟨k + 1, l, hk, ?_, by omega, List.forall_mem_cons.mpr ⟨by omega, hall⟩⟩
        rw [heq, Nat.add_assoc, Nat.add_comm 1]
    case isFalse hle =>
      obtain ⟨heq, hall⟩ | ⟨k, l, hk, heq, hl, hall⟩ := ih (i + 1) time oldest
      · exact .inl ⟨heq, List.forall_mem_cons.mpr ⟨by omega, hall⟩⟩
      · refine .inr ⟨k + 1, l, hk, ?_, hl, List.forall_mem_cons.mpr ⟨by omega, hall⟩⟩
        rw [heq, Nat.add_assoc, Nat.add_comm 1]

theorem oldestExpiredLease_some (h : oldestExpiredLease leases now = some i) :
    ∃ l, leases[i]? = some l ∧ l.expires < now ∧ ∀ l' ∈ leases, l.expires ≤ l'.expires := by
  obtain ⟨heq, -⟩ | ⟨k, l, hk, heq, hl, hall⟩ := oldestFrom_cases leases 0 now none
  · cases heq.symm.trans h
  · obtain rfl : 0 + k = i := Option.some.inj (heq.symm.trans h)
    rw [Nat.zero_add]
    exact ⟨l, hk, hl, hall⟩

theorem oldestExpiredLease_none (h : oldestExpiredLease leases now = none) :
    ∀ l ∈ leases, now ≤ l.expires := by
  obtain ⟨-, hall⟩ | ⟨k, l, -, heq, -⟩ := oldestFrom_cases leases 0 now none
  · exact hall
  · cases heq.symm.trans h

/-! ## Nothing twice -/

/-- Two entries for different addresses and different clients. -/
def Apart (a b : DynLease) : Prop :=
  (a.leaseNip = b.leaseNip → a.leaseNip = 0) ∧ (a.leaseMac = b.leaseMac → a.leaseMac = nullMac)

/-- No address and no client has two entries. -/
def Distinct (leases : List DynLease) : Prop :=
  ∀ (i j : ℕ) (a b : DynLease), leases[i]? = some a → leases[j]? = some b → i ≠ j → Apart a b

/-- The entry has the address and the client it had, or none. -/
def Fades (b a : DynLease) : Prop :=
  (a.leaseNip = b.leaseNip ∨ a.leaseNip = 0) ∧ (a.leaseMac = b.leaseMac ∨ a.leaseMac = nullMac)

theorem Apart.symm {a b : DynLease} (h : Apart a b) : Apart b a :=
  ⟨fun heq => heq.trans (h.1 heq.symm), fun heq => heq.trans (h.2 heq.symm)⟩

theorem Fades.refl (l : DynLease) : Fades l l := ⟨.inl rfl, .inl rfl⟩

theorem fades_declined (l : DynLease) (now declineTime : ℕ) :
    Fades l (l.declined now declineTime) :=
  ⟨.inl rfl, .inr rfl⟩

theorem fades_released (l : DynLease) (now : ℕ) : Fades l (l.released now) := ⟨.inl rfl, .inl rfl⟩

/-- What is not in two places is not in two places when some of them are cleared. -/
theorem eq_zero_of_fades {α : Type} {zero a b a' b' : α} (ha : a' = a ∨ a' = zero)
    (hb : b' = b ∨ b' = zero) (h : a = b → a = zero) (heq : a' = b') : a' = zero := by
  obtain ha | ha := ha
  · obtain hb | hb := hb
    · exact ha.trans (h (ha.symm.trans (heq.trans hb)))
    · exact heq.trans hb
  · exact ha

theorem Fades.apart {a b a' b' : DynLease} (ha : Fades a a') (hb : Fades b b') (h : Apart a b) :
    Apart a' b' :=
  ⟨eq_zero_of_fades ha.1 hb.1 h.1, eq_zero_of_fades ha.2 hb.2 h.2⟩

theorem distinct_blank (n : ℕ) : Distinct (.replicate n .blank) := by
  intro i j a b ha _ _
  obtain rfl := List.eq_of_mem_replicate (List.mem_of_getElem? ha)
  exact ⟨fun _ => rfl, fun _ => rfl⟩

theorem Distinct.map (h : Distinct leases) {f : DynLease → DynLease} (hf : ∀ l, Fades l (f l)) :
    Distinct (leases.map f) := by
  intro i j a b ha hb hij
  rw [List.getElem?_map, Option.map_eq_some_iff] at ha hb
  obtain ⟨a', ha', rfl⟩ := ha
  obtain ⟨b', hb', rfl⟩ := hb
  exact (hf a').apart (hf b') (h i j a' b' ha' hb' hij)

theorem Distinct.modify (h : Distinct leases) {f : DynLease → DynLease} (hf : ∀ l, Fades l (f l))
    (i : ℕ) : Distinct (leases.modify i f) := by
  have hentry : ∀ (j : ℕ) (a : DynLease), (leases.modify i f)[j]? = some a →
      ∃ b, leases[j]? = some b ∧ Fades b a := by
    intro j a ha
    rw [List.getElem?_modify] at ha
    split at ha
    · obtain ⟨b, hb, rfl⟩ := Option.map_eq_some_iff.mp ha
      exact ⟨b, hb, hf b⟩
    · obtain ⟨b, hb, rfl⟩ := Option.map_eq_some_iff.mp ha
      exact ⟨b, hb, Fades.refl b⟩
  intro j k a b ha hb hjk
  obtain ⟨a', ha', hfa⟩ := hentry j a ha
  obtain ⟨b', hb', hfb⟩ := hentry k b hb
  exact hfa.apart hfb (h j k a' b' ha' hb' hjk)

/-- An entry for an address and a client that have none. -/
theorem Distinct.set (h : Distinct leases) {e : DynLease} (he : ∀ b ∈ leases, Apart e b) (i : ℕ) :
    Distinct (leases.set i e) := by
  intro j k a b ha hb hjk
  rw [List.getElem?_set] at ha hb
  split_ifs at ha hb with hij hlt hik hik
  · omega
  · obtain rfl := Option.some.inj ha
    exact he b (List.mem_of_getElem? hb)
  · obtain rfl := Option.some.inj hb
    exact (he a (List.mem_of_getElem? ha)).symm
  · exact h j k a b ha hb hjk

theorem mem_clearLeases (h : l ∈ clearLeases chaddr yiaddr leases) :
    l = .blank ∨ ¬ Clears chaddr yiaddr l := by
  obtain ⟨l, -, rfl⟩ := List.mem_map.mp h
  split
  · exact .inl rfl
  · exact .inr ‹_›

theorem Distinct.clear (h : Distinct leases) (chaddr : Option LeaseMac) (yiaddr : ℕ) :
    Distinct (clearLeases chaddr yiaddr leases) := by
  refine h.map fun l => ?_
  split
  · exact ⟨.inr rfl, .inr rfl⟩
  · exact Fades.refl l

/-- After the entries are cleared, a new one stands beside them. -/
theorem apart_of_cleared {e : DynLease} (hnip : e.leaseNip = yiaddr)
    (hmac : e.leaseMac = chaddr.getD nullMac) (hl : l ∈ clearLeases chaddr yiaddr leases) :
    Apart e l := by
  obtain rfl | hclear := mem_clearLeases hl
  · exact ⟨fun heq => heq, fun heq => heq⟩
  refine ⟨fun heq => ?_, fun heq => ?_⟩
  · by_contra hne
    exact hclear (.inr ⟨fun hzero => hne (hnip.trans hzero), heq.symm.trans hnip⟩)
  · cases chaddr with
    | none => exact hmac
    | some m => exact absurd (.inl (congrArg some (hmac.symm.trans heq))) hclear

theorem Distinct.add (h : Distinct leases) (now : ℕ) (chaddr : Option LeaseMac)
    (yiaddr leasetime : ℕ) (hostname : Option (List UInt8)) :
    Distinct (addLease leases now chaddr yiaddr leasetime hostname).1 := by
  rw [addLease]
  split
  · exact h.clear chaddr yiaddr
  · exact (h.clear chaddr yiaddr).set (fun b hb => apart_of_cleared rfl rfl hb) _

theorem Distinct.change (h : Distinct leases) {f : DynLease → DynLease} (hf : ∀ l, Fades l (f l))
    (chaddr : LeaseMac) (nip : ℕ) : Distinct (changeLease leases chaddr nip f) := by
  rw [changeLease]
  split
  · exact h
  · refine h.modify (fun l => ?_) _
    split
    · exact hf l
    · exact Fades.refl l

theorem Distinct.step (h : Distinct leases) (op : LeaseOp) : Distinct (leaseStep leases op).1 := by
  cases op with
  | add now chaddr yiaddr leasetime hostname => exact h.add now chaddr yiaddr leasetime hostname
  | decline now chaddr nip declineTime =>
    exact h.change (fun l => fades_declined l now declineTime) chaddr nip
  | release now chaddr nip =>
    exact h.change (fun l => fades_released l now) chaddr nip

theorem length_addLease (leases : List DynLease) (now : ℕ) (chaddr : Option LeaseMac)
    (yiaddr leasetime : ℕ) (hostname : Option (List UInt8)) :
    (addLease leases now chaddr yiaddr leasetime hostname).1.length = leases.length := by
  rw [addLease]
  split <;> simp only [List.length_set, clearLeases, List.length_map]

theorem length_changeLease (leases : List DynLease) (chaddr : LeaseMac) (nip : ℕ)
    (f : DynLease → DynLease) : (changeLease leases chaddr nip f).length = leases.length := by
  rw [changeLease]
  split
  · rfl
  · exact List.length_modify ..

theorem length_step (leases : List DynLease) (op : LeaseOp) :
    (leaseStep leases op).1.length = leases.length := by
  cases op with
  | add now chaddr yiaddr leasetime hostname =>
    exact length_addLease leases now chaddr yiaddr leasetime hostname
  | decline now chaddr nip declineTime => exact length_changeLease leases chaddr nip _
  | release now chaddr nip => exact length_changeLease leases chaddr nip _

theorem distinct_run (n : ℕ) (ops : List LeaseOp) :
    (run leaseStep (.replicate n .blank) ops).1.length = n ∧
      Distinct (run leaseStep (.replicate n .blank) ops).1 :=
  run_induction (P := fun leases _ _ => leases.length = n ∧ Distinct leases)
    ⟨List.length_replicate, distinct_blank n⟩
    (fun leases _ _ op h => ⟨(length_step leases op).trans h.1, h.2.step op⟩) ops

/-! ## A lease that is added -/

/-- A search finds the one entry that it can find. -/
theorem find_of_unique {p : DynLease → Bool} (hi : leases[i]? = some l) (hl : p l = true)
    (hunique : ∀ (j : ℕ) (a : DynLease), leases[j]? = some a → j ≠ i → p a = false) :
    leases.findIdx? p = some i := by
  obtain ⟨hlt, rfl⟩ := List.getElem?_eq_some_iff.mp hi
  refine List.findIdx?_eq_some_iff_getElem.mpr ⟨hlt, hl, fun j hj => ?_⟩
  rw [hunique j leases[j] (List.getElem?_eq_getElem (by omega)) (by omega)]
  exact Bool.false_ne_true

/-- The one entry of a client is found. -/
theorem Distinct.findLeaseByMac (h : Distinct leases) (hi : leases[i]? = some l)
    (hmac : l.leaseMac ≠ nullMac) : findLeaseByMac leases l.leaseMac = some i := by
  refine find_of_unique hi (decide_eq_true rfl) fun j a hj hji => decide_eq_false fun heq => ?_
  exact hmac (heq ▸ (h j i a l hj hi hji).2 heq)

/-- The one entry for an address is found. -/
theorem Distinct.findLeaseByNip (h : Distinct leases) (hi : leases[i]? = some l)
    (hnip : l.leaseNip ≠ 0) : findLeaseByNip leases l.leaseNip = some i := by
  refine find_of_unique hi (decide_eq_true rfl) fun j a hj hji => decide_eq_false fun heq => ?_
  exact hnip (heq ▸ (h j i a l hj hi hji).1 heq)

/-- The entry that is returned. -/
theorem addLease_some (h : (addLease leases now chaddr yiaddr leasetime hostname).2 = some i) :
    (addLease leases now chaddr yiaddr leasetime hostname).1[i]? = some
      { expires := (now + leasetime) % 4294967296
        leaseNip := yiaddr
        leaseMac := chaddr.getD nullMac
        hostname := hostname.elim [] keptName } := by
  rw [addLease] at h ⊢
  split at h
  · cases h
  case h_2 k hk =>
    obtain rfl := Option.some.inj h
    obtain ⟨l, hl, -⟩ := oldestExpiredLease_some hk
    dsimp only
    exact List.getElem?_set_self (List.getElem?_eq_some_iff.mp hl).1

/-- There is no entry that has expired. -/
theorem addLease_none (h : (addLease leases now chaddr yiaddr leasetime hostname).2 = none)
    (hl : l ∈ leases) : Clears chaddr yiaddr l ∧ now = 0 ∨ now ≤ l.expires := by
  rw [addLease] at h
  split at h
  case h_1 hk =>
    have hall := oldestExpiredLease_none hk _ (List.mem_map_of_mem hl)
    split at hall
    case isTrue hclear => exact .inl ⟨hclear, Nat.le_zero.mp hall⟩
    case isFalse => exact .inr hall
  · cases h

/-- A lease of another client for another address stays until it expires. -/
theorem addLease_kept (hj : leases[j]? = some l) (hnow : now ≤ l.expires)
    (hclear : ¬ Clears chaddr yiaddr l) :
    (addLease leases now chaddr yiaddr leasetime hostname).1[j]? = some l := by
  have hcleared : (clearLeases chaddr yiaddr leases)[j]? = some l := by
    rw [clearLeases, List.getElem?_map, hj, Option.map_some, if_neg hclear]
  rw [addLease]
  split
  · exact hcleared
  case h_2 i hi =>
    obtain ⟨l', hl', hexpired, -⟩ := oldestExpiredLease_some hi
    have hne : i ≠ j := by
      rintro rfl
      obtain rfl := Option.some.inj (hl'.symm.trans hcleared)
      omega
    exact (List.getElem?_set_ne hne).trans hcleared

/-- However the table is used, it keeps its size, and no address and no client has two entries in
it. A lease that is then added is found by its client and by its address, with the time at which it
expires; there is no room for it only if no entry has expired; and a lease of another client for
another address stays until it expires. -/
theorem leases_of_run (n : ℕ) (ops : List LeaseOp) :
    let leases := (run leaseStep (.replicate n .blank) ops).1
    leases.length = n ∧ Distinct leases ∧
      ∀ now chaddr yiaddr leasetime hostname,
        let r := addLease leases now (some chaddr) yiaddr leasetime hostname
        (∀ i, r.2 = some i → chaddr ≠ nullMac → yiaddr ≠ 0 →
          findLeaseByMac r.1 chaddr = some i ∧ findLeaseByNip r.1 yiaddr = some i ∧
            r.1[i]?.map DynLease.expires = some ((now + leasetime) % 4294967296)) ∧
        (r.2 = none → 0 < now → ∀ l ∈ leases, now ≤ l.expires) ∧
        ∀ (j : ℕ) (l : DynLease), leases[j]? = some l → now ≤ l.expires →
          ¬ Clears (some chaddr) yiaddr l → r.1[j]? = some l := by
  intro leases
  obtain ⟨hlength, hdistinct⟩ := distinct_run n ops
  refine ⟨hlength, hdistinct, fun now chaddr yiaddr leasetime hostname => ⟨?_, ?_, ?_⟩⟩
  · intro i hi hmac hnip
    have hentry := addLease_some hi
    have hadd := hdistinct.add now (some chaddr) yiaddr leasetime hostname
    exact ⟨hadd.findLeaseByMac hentry hmac, hadd.findLeaseByNip hentry hnip, by rw [hentry]; rfl⟩
  · intro hnone hnow l hl
    obtain ⟨-, hzero⟩ | hle := addLease_none hnone hl
    · omega
    · exact hle
  · exact fun j l hj hle hclear => addLease_kept hj hle hclear

end Fullmac.Dhcp
