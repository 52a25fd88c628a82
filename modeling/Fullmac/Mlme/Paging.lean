import Fullmac.Mlme.Expiry

/-!
# The list in pages

Reference: `host/core/host_apis.c`, `ssv6xxx_aplist_get_count` and `ssv6xxx_aplist_get_str`.

The application asks how many pages there are and then for the text of one page after the other. The
number of pages is a quotient. Which entries are on a page is found by a walk over the list with two
counters. Read together, the entries in use fall into blocks of `SSV6XXX_APLIST_PAGE_COUNT`.
-/

namespace Fullmac.Mlme

/-! ## Blocks of a list -/

section Blocks

variable {α : Type*} {xs : List α}

/-- Block `k` of size `size`. -/
def block (size : ℕ) (xs : List α) (k : ℕ) : List α := (xs.drop (size * k)).take size

theorem length_block_le (size : ℕ) (xs : List α) (k : ℕ) : (block size xs k).length ≤ size :=
  List.length_take_le _ _

theorem block_ne_nil {size k : ℕ} (hsize : 0 < size) (h : size * k < xs.length) :
    block size xs k ≠ [] := by
  intro hnil
  have hlen : (block size xs k).length = min size (xs.length - size * k) := by simp [block]
  rw [hnil, List.length_nil] at hlen
  omega

/-- The first blocks one after the other. -/
theorem flatMap_block (size : ℕ) (xs : List α) (k : ℕ) :
    (List.range k).flatMap (block size xs) = xs.take (size * k) := by
  induction k with
  | zero => simp
  | succ k ih =>
    rw [List.range_succ, List.flatMap_append, ih, List.flatMap_singleton, Nat.mul_succ,
      List.take_add]
    rfl

/-- A further element goes to the block that is not full. -/
theorem block_concat {size : ℕ} (hsize : 0 < size) (xs : List α) (a : α) (k : ℕ) :
    block size (xs ++ [a]) k
      = if xs.length / size = k then block size xs k ++ [a] else block size xs k := by
  have hdiv : xs.length / size = k ↔ size * k ≤ xs.length ∧ xs.length < size * k + size := by
    rw [Nat.div_eq_iff hsize, Nat.mul_comm k size]
    omega
  unfold block
  rcases Nat.lt_or_ge xs.length (size * k) with hlt | hge
  · -- the block is behind the list
    rw [if_neg fun h => by omega, List.drop_eq_nil_of_le (by simp; omega),
      List.drop_eq_nil_of_le hlt.le]
  rw [List.drop_append_of_le_length hge]
  rcases Nat.lt_or_ge xs.length (size * k + size) with hlt | hge'
  · rw [if_pos (hdiv.mpr ⟨hge, hlt⟩), List.take_of_length_le (by simp; omega),
      List.take_of_length_le (by simp; omega)]
  · rw [if_neg fun h => by omega, List.take_append_of_le_length (by simp; omega)]

end Blocks

/-! ## The functions -/

/-- `SSV6XXX_APLIST_PAGE_COUNT`. -/
def aplistPageCount : ℕ := 10

/-- `ssv6xxx_aplist_get_count`, over a list of `n`. -/
def aplistGetCount (n : ℕ) (l : ApList) : ℕ :=
  let count := (List.range n).countP fun i => (l i).channelId ≠ 0
  if count % aplistPageCount ≠ 0 then count / aplistPageCount + 1 else count / aplistPageCount

/-- The variables of the loop of `ssv6xxx_aplist_get_str`, with the entries written so far. -/
structure PageWalk where
  written : List ℕ
  count : ℕ
  pageNum : ℕ

/-- The body of the loop. -/
def pageStep (l : ApList) (page : ℕ) (w : PageWalk) (i : ℕ) : PageWalk :=
  if (l i).channelId ≠ 0 then
    let written := if w.pageNum = page then w.written ++ [i] else w.written
    if aplistPageCount ≤ w.count + 1 then ⟨written, 0, (w.pageNum + 1) % 256⟩
    else ⟨written, w.count + 1, w.pageNum⟩
  else w

/-- The loop over the first `k` entries. -/
def pageWalk (l : ApList) (page k : ℕ) : PageWalk :=
  (List.range k).foldl (pageStep l page) ⟨[], 0, 1⟩

/-- The entries that `ssv6xxx_aplist_get_str` writes into a page. -/
def aplistPage (n : ℕ) (l : ApList) (page : ℕ) : List ℕ := (pageWalk l page n).written

/-- `%02x`. -/
def hex2 (b : UInt8) : List Char := [Nat.digitChar (b.toNat / 16), Nat.digitChar (b.toNat % 16)]

/-- The text of an entry, with its `capab_info`. -/
def apStr (capabInfo : ℕ) (e : Bss) : List Char :=
  "BSSID#".toList ++ [':'].intercalate (e.bssid.toList.map hex2) ++ ";".toList
    ++ "SSID#".toList
    ++ (cString (e.ssid.toList.take e.ssidLen.toNat)).map (fun b => Char.ofNat b.toNat)
    ++ ";".toList
    ++ (if capabInfo.testBit 4 then
          if e.proto.testBit 0 then "proto#WPA;".toList
          else if e.proto.testBit 1 then "proto#WPA2;".toList
          else "proto#WEP;".toList
        else "proto#OPEN;".toList)
    ++ "channel#".toList ++ Nat.toDigits 10 e.channelId.toNat ++ ";\r\n".toList

/-- `ssv6xxx_aplist_get_str`. What the list stores of an entry holds its `capabInfo`. -/
def aplistGetStr (capabInfo : List UInt8 → ℕ) (n : ℕ) (l : ApList) (page : ℕ) : List Char :=
  (aplistPage n l page).flatMap fun i => apStr (capabInfo (l i).info) (l i)

/-! ## The walk -/

variable {n k : ℕ} {l : ApList} {page : ℕ}

/-- The entries in use, in their order. -/
def occupiedList (n : ℕ) (l : ApList) : List ℕ := (List.range n).filter fun i => (l i).Occupied

theorem occupiedList_succ (k : ℕ) (l : ApList) :
    occupiedList (k + 1) l
      = if (l k).Occupied then occupiedList k l ++ [k] else occupiedList k l := by
  simp only [occupiedList, List.range_succ, List.filter_append, List.filter_cons, List.filter_nil,
    decide_eq_true_eq]
  split
  · rfl
  · exact List.append_nil _

theorem length_occupiedList_le (n : ℕ) (l : ApList) : (occupiedList n l).length ≤ n := by
  simpa [occupiedList] using List.length_filter_le (fun i => decide (l i).Occupied) (List.range n)

/-- The walk keeps how full the page is and which one it is, as long as the number of the page does
not wrap. -/
theorem pageWalk_eq (hk : k ≤ 2550) (hpage : 1 ≤ page) (l : ApList) :
    pageWalk l page k = ⟨block aplistPageCount (occupiedList k l) (page - 1),
      (occupiedList k l).length % aplistPageCount,
      (1 + (occupiedList k l).length / aplistPageCount) % 256⟩ := by
  induction k with
  | zero => simp [pageWalk, occupiedList, block]
  | succ k ih =>
    have hsnoc : pageWalk l page (k + 1) = pageStep l page (pageWalk l page k) k := by
      simp [pageWalk, List.range_succ]
    have hlen := length_occupiedList_le k l
    rw [hsnoc, ih (by omega), occupiedList_succ, pageStep]
    by_cases hocc : (l k).channelId ≠ 0
    case neg => rw [if_neg hocc, if_neg (show ¬ (l k).Occupied from hocc)]
    rw [if_pos hocc, if_pos (show (l k).Occupied from hocc), block_concat (by decide),
      List.length_append, List.length_singleton]
    -- the entry goes to the page that the counters stand at
    have hat : (1 + (occupiedList k l).length / aplistPageCount) % 256 = page
        ↔ (occupiedList k l).length / aplistPageCount = page - 1 := by
      simp only [aplistPageCount]
      omega
    simp only [hat]
    by_cases hfull : aplistPageCount ≤ (occupiedList k l).length % aplistPageCount + 1
    · rw [if_pos hfull]
      simp only [aplistPageCount, PageWalk.mk.injEq, true_and] at hfull ⊢
      omega
    · rw [if_neg hfull]
      simp only [aplistPageCount, PageWalk.mk.injEq, true_and] at hfull ⊢
      omega

/-- A page is a block of the entries in use. -/
theorem aplistPage_eq (hn : n ≤ 2550) (hpage : 1 ≤ page) (l : ApList) :
    aplistPage n l page = block aplistPageCount (occupiedList n l) (page - 1) := by
  rw [aplistPage, pageWalk_eq hn hpage]

/-- The number of pages. -/
theorem aplistGetCount_spec (n : ℕ) (l : ApList) :
    (occupiedList n l).length ≤ aplistPageCount * aplistGetCount n l ∧
      ∀ k < aplistGetCount n l, aplistPageCount * k < (occupiedList n l).length := by
  have hcount : aplistGetCount n l = if (occupiedList n l).length % aplistPageCount ≠ 0
      then (occupiedList n l).length / aplistPageCount + 1
      else (occupiedList n l).length / aplistPageCount := by
    simp only [aplistGetCount, occupiedList, List.countP_eq_length_filter]
    rfl
  by_cases hrest : (occupiedList n l).length % aplistPageCount ≠ 0
  · rw [hcount.trans (if_pos hrest)]
    simp only [aplistPageCount] at hrest ⊢
    exact ⟨by omega, fun k hk => by omega⟩
  · rw [hcount.trans (if_neg hrest)]
    simp only [aplistPageCount] at hrest ⊢
    exact ⟨by omega, fun k hk => by omega⟩

/-- Every second entry is in use. -/
def everySecond : ApList := fun i => if i % 2 = 0 then { Bss.zero with channelId := 6 } else .zero

end Fullmac.Mlme
