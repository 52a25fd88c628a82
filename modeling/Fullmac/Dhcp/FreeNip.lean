import Fullmac.Dhcp.Leases
import Fullmac.Dhcp.Grant

/-!
# An address for a new client

Reference: `host/app/netapp/udhcp/leases.c`, `nobody_responds_to_arp`, `find_free_or_expired_nip`;
`host/app/netapp/udhcp/static_leases.c`, `is_nip_reserved`.

The search goes over the addresses of the pool once. An address that somebody answers for is entered
into the table, and that may take the entry which the search remembers as the oldest; so the address
of that entry can change under the search, but it stays one that may be given out
(`findFreeOrExpiredNip_suitable`).
-/

namespace Fullmac.Dhcp

open Loops (passes passes_of_measure of_passes)
open Machine (run run_append)

/-- `struct static_lease`. -/
structure StaticLease where
  nip : ℕ
  mac : LeaseMac

/-- The fields of `struct server_config_t` that the search reads. -/
structure Pool where
  startIp : ℕ
  endIp : ℕ
  serverNip : ℕ
  conflictTime : ℕ
  staticLeases : List StaticLease
  startIp_lt : startIp < 4294967296
  endIp_lt : endIp < 4294967296

/-- What the search is told when it is at an address: whether nobody responds to `arpping`, whether
`netmgr_wifi_check_mac` finds the client, and the time. -/
structure Answers where
  nobodyResponds : Bool
  online : Bool
  now : ℕ

/-- The variables of `find_free_or_expired_nip`, and the table. -/
structure NipSearch where
  leases : List DynLease
  addr : ℕ
  oldestLease : Option ℕ

/-- `is_nip_reserved`. -/
def isNipReserved (pool : Pool) (nip : ℕ) : Bool := pool.staticLeases.any fun st => st.nip = nip

/-- The entry that the search remembers. -/
def NipSearch.oldest (s : NipSearch) : Option DynLease := s.oldestLease.bind fun i => s.leases[i]?

/-- `next_addr`: the search goes on, or it is through. -/
def nextAddr (pool : Pool) (s : NipSearch) : NipSearch ⊕ List DynLease × ℕ :=
  let addr := (s.addr + 1) % 4294967296
  if addr = (pool.endIp + 1) % 4294967296 then .inr (s.leases, s.oldest.elim 0 DynLease.leaseNip)
  else .inl { s with addr := addr }

/-- The search does not stop at an address that nobody gets. -/
def Skipped (pool : Pool) (addr : ℕ) : Prop :=
  addr % 256 = 0 ∨ addr % 256 = 255 ∨ htonl addr = pool.serverNip ∨
    isNipReserved pool (htonl addr) = true

instance (pool : Pool) (addr : ℕ) : Decidable (Skipped pool addr) :=
  inferInstanceAs (Decidable (_ ∨ _ ∨ _ ∨ _))

/-- One pass of the loop of `find_free_or_expired_nip`. -/
def findNipPass (pool : Pool) (ask : ℕ → Answers) (s : NipSearch) :
    NipSearch ⊕ List DynLease × ℕ :=
  let nip := htonl s.addr
  if Skipped pool s.addr then nextAddr pool s
  else
    match findLeaseByNip s.leases nip with
    | none =>
      if (ask s.addr).nobodyResponds then .inr (s.leases, nip)
      else
        let r := addLease s.leases (ask s.addr).now none nip pool.conflictTime none
        nextAddr pool { s with leases := r.1 }
    | some i =>
      let older : Prop := ∀ l ∈ s.leases[i]?, ∀ o ∈ s.oldest, l.expires < o.expires
      if older ∧ (ask s.addr).online = false then nextAddr pool { s with oldestLease := some i }
      else nextAddr pool s

/-- `find_free_or_expired_nip`: the table behind it, and the address. -/
def findFreeOrExpiredNip (pool : Pool) (ask : ℕ → Answers) (leases : List DynLease) :
    Option (List DynLease × ℕ) :=
  passes (findNipPass pool ask) 4294967296 ⟨leases, pool.startIp, none⟩

/-! ## The addresses of the pool -/

/-- From the start of the pool to its end, round the number range if need be. -/
def InPool (pool : Pool) (addr : ℕ) : Prop :=
  addr < 4294967296 ∧ (addr + 4294967296 - pool.startIp) % 4294967296 ≤
    (pool.endIp + 4294967296 - pool.startIp) % 4294967296

/-- An address that may be given out. -/
def Suitable (pool : Pool) (nip : ℕ) : Prop :=
  ∃ addr, InPool pool addr ∧ ¬ Skipped pool addr ∧ nip = htonl addr

/-- The search is in the pool, the entry that it remembers has an address of the pool, and all that
was done to the table is what is done to it elsewhere. -/
structure NipSearch.InRange (pool : Pool) (leases : List DynLease) (s : NipSearch) : Prop where
  addr : InPool pool s.addr
  oldest : ∀ l ∈ s.oldest, Suitable pool l.leaseNip
  table : ∃ ops, s.leases = (run leaseStep leases ops).1

/-- How many addresses are left behind this one. -/
def NipSearch.left (pool : Pool) (s : NipSearch) : ℕ :=
  (pool.endIp + 4294967296 - s.addr) % 4294967296

variable {pool : Pool} {leases : List DynLease} {s s' : NipSearch} {r : List DynLease × ℕ}

theorem inPool_startIp (pool : Pool) : InPool pool pool.startIp := by
  have := pool.startIp_lt
  exact ⟨pool.startIp_lt, by omega⟩

/-- What `next_addr` does, from a search whose table may have changed. -/
theorem nextAddr_inl (hs : s.InRange pool leases) (h : nextAddr pool s = .inl s') :
    s'.InRange pool leases ∧ s'.left pool < s.left pool := by
  rw [nextAddr] at h
  split at h
  · cases h
  case isFalse hne =>
    obtain rfl := Sum.inl.inj h
    obtain ⟨haddr, hpool⟩ := hs.addr
    have hstart := pool.startIp_lt
    have hend := pool.endIp_lt
    refine ⟨⟨⟨?_, ?_⟩, hs.oldest, hs.table⟩, ?_⟩
    · dsimp only
      omega
    · dsimp only
      omega
    · dsimp only [NipSearch.left]
      omega

theorem nextAddr_inr (hs : s.InRange pool leases) (h : nextAddr pool s = .inr r) :
    (r.2 = 0 ∨ Suitable pool r.2) ∧ ∃ ops, r.1 = (run leaseStep leases ops).1 := by
  rw [nextAddr] at h
  split at h
  case isTrue =>
    obtain rfl := Sum.inr.inj h
    refine ⟨?_, hs.table⟩
    cases hold : s.oldest with
    | none => exact .inl rfl
    | some l => exact .inr (hs.oldest l hold)
  · cases h

/-- When an address is entered that had no entry, an entry is as it was, or has that address. -/
theorem entry_addLease {now nip leasetime i : ℕ} {l : DynLease}
    (hnone : findLeaseByNip leases nip = none)
    (hl : (addLease leases now none nip leasetime none).1[i]? = some l) :
    leases[i]? = some l ∨ l.leaseNip = nip := by
  have hclear : clearLeases none nip leases = leases := by
    rw [clearLeases]
    conv_rhs => rw [← List.map_id leases]
    refine List.map_congr_left fun l hl => if_neg ?_
    rintro (hmac | ⟨-, hnip⟩)
    · cases hmac
    · simpa [hnip] using List.findIdx?_eq_none_iff.mp hnone l hl
  rw [addLease, hclear] at hl
  split at hl
  · exact .inl hl
  · rw [List.getElem?_set] at hl
    split_ifs at hl
    · obtain rfl := Option.some.inj hl
      exact .inr rfl
    · exact .inl hl

theorem nip_of_found {nip i : ℕ} {l : DynLease}
    (h : findLeaseByNip leases nip = some i) (hl : leases[i]? = some l) : l.leaseNip = nip := by
  obtain ⟨hlt, hnip, -⟩ := List.findIdx?_eq_some_iff_getElem.mp h
  obtain ⟨-, rfl⟩ := List.getElem?_eq_some_iff.mp hl
  simpa using hnip

/-- A pass goes on from a search that is still in range, or takes the address at which it is. -/
theorem findNipPass_cases (ask : ℕ → Answers) (hs : s.InRange pool leases) :
    (∃ t, t.addr = s.addr ∧ t.InRange pool leases ∧ findNipPass pool ask s = nextAddr pool t) ∨
      ¬ Skipped pool s.addr ∧ findNipPass pool ask s = .inr (s.leases, htonl s.addr) := by
  rw [findNipPass]
  by_cases hskip : Skipped pool s.addr
  · exact .inl ⟨s, rfl, hs, if_pos hskip⟩
  have hsuitable : Suitable pool (htonl s.addr) := ⟨s.addr, hs.addr, hskip, rfl⟩
  simp only [if_neg hskip]
  split
  case h_1 hnone =>
    split
    case isTrue => exact .inr ⟨hskip, rfl⟩
    case isFalse =>
      refine .inl ⟨{ s with leases := (addLease s.leases (ask s.addr).now none (htonl s.addr)
        pool.conflictTime none).1 }, rfl, ⟨hs.addr, fun l hl => ?_, ?_⟩, rfl⟩
      · -- the entry that is remembered may be the one that was taken
        obtain ⟨i, hi, hl⟩ := Option.bind_eq_some_iff.mp hl
        have hin := hs.oldest
        rw [NipSearch.oldest, hi] at hin
        obtain hsame | hnip := entry_addLease hnone hl
        · exact hin l hsame
        · exact hnip ▸ hsuitable
      · obtain ⟨ops, hops⟩ := hs.table
        refine ⟨ops ++ [.add (ask s.addr).now none (htonl s.addr) pool.conflictTime none], ?_⟩
        rw [run_append, ← hops]
        rfl
  case h_2 i hfound =>
    split
    case isTrue =>
      refine .inl ⟨{ s with oldestLease := some i }, rfl, ⟨hs.addr, fun l hl => ?_, hs.table⟩, rfl⟩
      exact nip_of_found hfound hl ▸ hsuitable
    case isFalse => exact .inl ⟨s, rfl, hs, rfl⟩

theorem findNipPass_inl (ask : ℕ → Answers) (hs : s.InRange pool leases)
    (h : findNipPass pool ask s = .inl s') :
    s'.InRange pool leases ∧ s'.left pool < s.left pool := by
  obtain ⟨t, haddr, ht, heq⟩ | ⟨-, heq⟩ := findNipPass_cases ask hs
  · obtain ⟨hs', hlt⟩ := nextAddr_inl ht (heq.symm.trans h)
    rw [NipSearch.left, NipSearch.left, haddr] at hlt
    exact ⟨hs', hlt⟩
  · cases heq.symm.trans h

theorem findNipPass_inr (ask : ℕ → Answers) (hs : s.InRange pool leases)
    (h : findNipPass pool ask s = .inr r) :
    (r.2 = 0 ∨ Suitable pool r.2) ∧ ∃ ops, r.1 = (run leaseStep leases ops).1 := by
  obtain ⟨t, -, ht, heq⟩ | ⟨hskip, heq⟩ := findNipPass_cases ask hs
  · exact nextAddr_inr ht (heq.symm.trans h)
  · obtain rfl := Sum.inr.inj (heq.symm.trans h)
    exact ⟨.inr ⟨s.addr, hs.addr, hskip, rfl⟩, hs.table⟩

end Fullmac.Dhcp
