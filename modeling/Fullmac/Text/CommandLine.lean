import Fullmac.Lib.Bytes
import Fullmac.Lib.Loops
import Mathlib.Data.Nat.Find

/-!
# Splitting a command line

Reference: `host/app/cli/cli.c`, `Cli_RunCmd`.

The line is cut in place: a pointer to the start of each word goes into `sgArgV`, and the separator
behind the word becomes NUL. Whether the loop is inside a word is kept in `ch`. The test that begins
a word lists three separators and the test that ends one lists four. So a tab that does not follow a
word begins one, which ends at once and is empty.
-/

namespace Fullmac.Text

open Bytes (Mem)
open Loops (passes)

/-! ## The code -/

/-- `CLI_ARG_SIZE`. -/
def cliArgSize : ℕ := 20

/-- The variables of `Cli_RunCmd`. A pointer is a place in the buffer. `written` lists the entries
of `sgArgV` that have been written. -/
structure CliState where
  buf : Mem
  argV : ℕ → ℕ
  argC : ℕ
  ch : Bool
  pch : ℕ
  written : List ℕ

/-- The separators: space, tab, LF and CR. -/
def Sep (c : UInt8) : Prop := c = 0x20 ∨ c = 0x09 ∨ c = 0x0A ∨ c = 0x0D

instance : DecidablePred Sep := fun _ => inferInstanceAs (Decidable (_ ∨ _ ∨ _ ∨ _))

/-- The first statement of the loop: a word begins. -/
def beginWord (st : CliState) : CliState :=
  let c := st.buf st.pch
  if st.ch = false ∧ c ≠ 0x20 ∧ c ≠ 0x0A ∧ c ≠ 0x0D then
    { st with
      ch := true, argV := Function.update st.argV st.argC st.pch
      written := st.written ++ [st.argC] }
  else st

/-- The second statement: a word ends. -/
def endWord (st : CliState) : CliState :=
  let c := st.buf st.pch
  if st.ch = true ∧ (c = 0x20 ∨ c = 0x09 ∨ c = 0x0A ∨ c = 0x0D) then
    { st with buf := Function.update st.buf st.pch 0, ch := false, argC := st.argC + 1 }
  else st

/-- One pass of the loop. -/
def cliPass (st : CliState) : CliState ⊕ CliState :=
  if st.buf st.pch ≠ 0 ∧ st.argC < cliArgSize then
    let st := endWord (beginWord st)
    .inl { st with pch := st.pch + 1 }
  else .inr st

/-- `strcmp` finds no difference between the string at `p` and `cmd`. -/
def strcmpEq (buf : Mem) (p : ℕ) : List UInt8 → Bool
  | [] => buf p = 0
  | c :: cmd => buf p = c && strcmpEq buf (p + 1) cmd

/-- What `Cli_RunCmd` returns, the variables at the time, and which handler of the table it has
called. -/
structure CliResult where
  ret : ℤ
  st : CliState
  called : Option ℕ

/-- A word that ends with the line is counted behind the loop. -/
def countLast (st : CliState) : CliState :=
  if st.ch = true then { st with argC := st.argC + 1 } else st

/-- The first word is looked up in the table of commands, whose names are given. -/
def dispatchCmd (table : List (List UInt8)) (st : CliState) : CliResult :=
  if st.argC ≤ 0 then ⟨0, st, none⟩
  else
    match table.findIdx? (strcmpEq st.buf (st.argV 0)) with
    | some k => ⟨0, st, some k⟩
    | none => ⟨-1, st, none⟩

/-- `Cli_RunCmd` behind the loop. -/
def cliDispatch (table : List (List UInt8)) (st : CliState) : CliResult :=
  if st.argC = cliArgSize then ⟨0, st, none⟩ else dispatchCmd table (countLast st)

/-- `Cli_RunCmd`, followed for at most `n` passes of its loop; `argV` is what the last line has left
in `sgArgV`. -/
def cliRunCmd (table : List (List UInt8)) (argV : ℕ → ℕ) (line : Mem) (n : ℕ) : Option CliResult :=
  (passes cliPass n ⟨line, argV, 0, false, 0, []⟩).map (cliDispatch table)

/-! ## What it should do -/

/-- A word starts here: no separator, and nothing or a separator before. -/
def WordStart (line : Mem) (p : ℕ) : Prop := ¬ Sep (line p) ∧ (p = 0 ∨ Sep (line (p - 1)))

instance (line : Mem) : DecidablePred (WordStart line) :=
  fun _ => inferInstanceAs (Decidable (_ ∧ _))

/-- The places where the words of the first `len` characters start. -/
def wordStarts (line : Mem) (len : ℕ) : List ℕ := (List.range len).filter fun p => WordStart line p

/-- The maximal run of characters other than separators that starts at `p` ends before `q`. -/
structure WordEnds (line : Mem) (len p q : ℕ) : Prop where
  lt : p < q
  le : q ≤ len
  noSep : ∀ k, p ≤ k → k < q → ¬ Sep (line k)
  ends : q = len ∨ Sep (line q)

/-- `sgArgV` holds the words of the line, in order, each with a NUL behind it. -/
structure SplitRight (line : Mem) (len : ℕ) (st : CliState) : Prop where
  args : (List.range st.argC).map st.argV = wordStarts line len
  words : ∀ p ∈ wordStarts line len, ∃ q, WordEnds line len p q ∧
    (∀ k, p ≤ k → k < q → st.buf k = line k) ∧ st.buf q = 0

/-- What the function is to do with a line of `len` characters, once it returns. -/
structure RunCmdRight (line : Mem) (len : ℕ) (r : CliResult) : Prop where
  written : ∀ i ∈ r.st.written, i < cliArgSize
  split : (wordStarts line len).length < cliArgSize → SplitRight line len r.st

/-- A tab that does not stand behind a word. -/
def StrayTab (line : Mem) (p : ℕ) : Prop := line p = 0x09 ∧ (p = 0 ∨ Sep (line (p - 1)))

instance (line : Mem) : DecidablePred (StrayTab line) :=
  fun _ => inferInstanceAs (Decidable (_ ∧ _))

/-! ## One pass -/

/-- What a pass does. -/
inductive PassCase (st : CliState) : CliState → Prop
  /-- A word begins. -/
  | first (hch : st.ch = false) (hsep : ¬ Sep (st.buf st.pch)) : PassCase st
      { st with
        ch := true, argV := Function.update st.argV st.argC st.pch, pch := st.pch + 1
        written := st.written ++ [st.argC] }
  /-- A separator between words. -/
  | between (hch : st.ch = false) (hsep : Sep (st.buf st.pch)) (htab : st.buf st.pch ≠ 0x09) :
      PassCase st { st with pch := st.pch + 1 }
  /-- A tab between words begins one and ends it. -/
  | tab (hch : st.ch = false) (htab : st.buf st.pch = 0x09) : PassCase st
      { st with
        buf := Function.update st.buf st.pch 0
        argV := Function.update st.argV st.argC st.pch, argC := st.argC + 1, pch := st.pch + 1
        written := st.written ++ [st.argC] }
  /-- Another character of a word. -/
  | inner (hch : st.ch = true) (hsep : ¬ Sep (st.buf st.pch)) :
      PassCase st { st with pch := st.pch + 1 }
  /-- A word ends. -/
  | last (hch : st.ch = true) (hsep : Sep (st.buf st.pch)) : PassCase st
      { st with
        buf := Function.update st.buf st.pch 0, ch := false, argC := st.argC + 1
        pch := st.pch + 1 }

theorem cliPass_inl {st st' : CliState} (h : cliPass st = .inl st') :
    st.buf st.pch ≠ 0 ∧ st.argC < cliArgSize ∧ PassCase st st' := by
  rw [cliPass] at h
  split at h
  · rename_i hgo
    refine ⟨hgo.1, hgo.2, ?_⟩
    obtain rfl := Sum.inl.inj h
    cases hch : st.ch with
    | false =>
      by_cases htab : st.buf st.pch = 0x09
      · have hcase := PassCase.tab hch htab
        simpa [endWord, beginWord, hch, htab] using hcase
      · by_cases hsep : Sep (st.buf st.pch)
        · have hcase := PassCase.between hch hsep htab
          have hno : ¬ (st.buf st.pch ≠ 0x20 ∧ st.buf st.pch ≠ 0x0A ∧ st.buf st.pch ≠ 0x0D) := by
            unfold Sep at hsep
            tauto
          simpa [endWord, beginWord, hch, hno] using hcase
        · have hcase := PassCase.first hch hsep
          simp only [Sep, not_or] at hsep
          simpa [endWord, beginWord, hch, hsep] using hcase
    | true =>
      by_cases hsep : Sep (st.buf st.pch)
      · have hcase := PassCase.last hch hsep
        rw [Sep] at hsep
        simpa [endWord, beginWord, hch, hsep] using hcase
      · have hcase := PassCase.inner hch hsep
        simp only [Sep, not_or] at hsep
        simpa [endWord, beginWord, hch, hsep] using hcase
  · cases h

theorem cliPass_inr {st st' : CliState} (h : cliPass st = .inr st') :
    st' = st ∧ (st.buf st.pch = 0 ∨ cliArgSize ≤ st.argC) := by
  rw [cliPass] at h
  split at h
  · cases h
  · rename_i hstop
    refine ⟨(Sum.inr.inj h).symm, ?_⟩
    by_cases hzero : st.buf st.pch = 0
    · exact .inl hzero
    · exact .inr (Nat.not_lt.mp fun hlt => hstop ⟨hzero, hlt⟩)

/-! ## Every line -/

/-- What holds on every line: the loop has not gone beyond the end, and nothing is written beyond
the end of `sgArgV`. -/
structure CliInside (len : ℕ) (st : CliState) : Prop where
  le : st.pch ≤ len
  nul : st.buf len = 0
  written : ∀ i ∈ st.written, i < cliArgSize

/-- Before the end there is a character to look at. -/
theorem CliInside.lt {len : ℕ} {st : CliState} (h : CliInside len st) (hne : st.buf st.pch ≠ 0) :
    st.pch < len := by
  refine Nat.lt_of_le_of_ne h.le fun heq => hne ?_
  rw [heq, h.nul]

theorem CliInside.pass {len : ℕ} {st st' : CliState} (h : CliInside len st)
    (hpass : cliPass st = .inl st') : CliInside len st' ∧ st'.pch = st.pch + 1 := by
  obtain ⟨hne, hargC, hcase⟩ := cliPass_inl hpass
  have hlt := h.lt hne
  have hwritten : ∀ i ∈ st.written ++ [st.argC], i < cliArgSize := by
    rw [List.forall_mem_append]
    exact ⟨h.written, by simpa using hargC⟩
  have hnul : Function.update st.buf st.pch 0 len = 0 := by
    rw [Function.update_of_ne (Nat.ne_of_gt hlt), h.nul]
  cases hcase with
  | first => exact ⟨⟨hlt, h.nul, hwritten⟩, rfl⟩
  | between => exact ⟨⟨hlt, h.nul, h.written⟩, rfl⟩
  | tab => exact ⟨⟨hlt, hnul, hwritten⟩, rfl⟩
  | inner => exact ⟨⟨hlt, h.nul, h.written⟩, rfl⟩
  | last => exact ⟨⟨hlt, hnul, h.written⟩, rfl⟩

/-- The loop ends. -/
theorem passes_cliPass {len : ℕ} {st : CliState} (h : CliInside len st) :
    ∃ st', passes cliPass (len + 1) st = some st' := by
  refine Loops.passes_of_measure (I := CliInside len) (μ := fun st => len - st.pch) ?_ h (by omega)
  intro st st' h hpass
  obtain ⟨h', hpch⟩ := h.pass hpass
  have hle := h'.le
  exact ⟨h', by omega⟩

/-! ## Lines without stray tabs -/

variable {line : Mem} {len : ℕ}

/-- The line with the separators behind the words cut out, up to `p`. -/
def cut (line : Mem) (p : ℕ) : Mem := fun k =>
  if k < p ∧ Sep (line k) ∧ 0 < k ∧ ¬ Sep (line (k - 1)) then 0 else line k

theorem cut_zero (line : Mem) : cut line 0 = line := by
  funext k
  exact if_neg fun h => absurd h.1 (Nat.not_lt_zero k)

/-- The character at hand is as it was. -/
theorem cut_self (line : Mem) (p : ℕ) : cut line p p = line p :=
  if_neg fun h => absurd h.1 (Nat.lt_irrefl p)

theorem cut_succ_of_not {p : ℕ} (h : ¬ (Sep (line p) ∧ 0 < p ∧ ¬ Sep (line (p - 1)))) :
    cut line (p + 1) = cut line p := by
  funext k
  refine if_congr ?_ rfl rfl
  by_cases hk : k = p
  · rw [hk]
    simp only [h, and_false]
  · rw [Nat.lt_succ_iff_lt_or_eq]
    simp only [hk, or_false]

theorem cut_succ {p : ℕ} (hsep : Sep (line p)) (hpos : 0 < p) (hprev : ¬ Sep (line (p - 1))) :
    cut line (p + 1) = Function.update (cut line p) p 0 := by
  funext k
  by_cases hk : k = p
  · rw [hk, Function.update_self]
    exact if_pos ⟨Nat.lt_succ_self p, hsep, hpos, hprev⟩
  · rw [Function.update_of_ne hk]
    refine if_congr ?_ rfl rfl
    rw [Nat.lt_succ_iff_lt_or_eq]
    simp only [hk, or_false]

theorem wordStarts_succ (line : Mem) (p : ℕ) :
    wordStarts line (p + 1) = wordStarts line p ++ if WordStart line p then [p] else [] := by
  rw [wordStarts, List.range_succ, List.filter_append]
  congr 1
  by_cases h : WordStart line p <;> simp [h]

theorem wordStarts_succ_of_not {p : ℕ} (h : ¬ WordStart line p) :
    wordStarts line (p + 1) = wordStarts line p := by
  rw [wordStarts_succ, if_neg h, List.append_nil]

theorem length_wordStarts_le (line : Mem) {p q : ℕ} (h : p ≤ q) :
    (wordStarts line p).length ≤ (wordStarts line q).length := by
  rw [wordStarts, wordStarts, ← List.countP_eq_length_filter, ← List.countP_eq_length_filter]
  exact List.Sublist.countP_le (List.range_sublist.mpr h)

/-- What holds as long as no stray tab has been met: the words that start before the place at hand
are in `sgArgV`, all but the one that the loop is inside of are counted and cut. -/
structure CliGood (line : Mem) (st : CliState) : Prop where
  noTab : ∀ k < st.pch, ¬ StrayTab line k
  buf : st.buf = cut line st.pch
  ch : st.ch = true ↔ 0 < st.pch ∧ ¬ Sep (line (st.pch - 1))
  argC : st.argC + (if st.ch = true then 1 else 0) = (wordStarts line st.pch).length
  args : (List.range (wordStarts line st.pch).length).map st.argV = wordStarts line st.pch

/-- What holds once a stray tab has been met: an entry of `sgArgV` points to a separator. -/
def CliStray (line : Mem) (st : CliState) : Prop := ∃ i < st.argC, Sep (line (st.argV i))

/-- One more entry. -/
theorem map_update_append {f : ℕ → ℕ} {l : List ℕ} (h : (List.range l.length).map f = l) (p : ℕ) :
    (List.range (l ++ [p]).length).map (Function.update f l.length p) = l ++ [p] := by
  have hbefore : (List.range l.length).map (Function.update f l.length p) = l := by
    rw [List.map_congr_left (g := f) fun i hi =>
      Function.update_of_ne (Nat.ne_of_lt (List.mem_range.mp hi)) _ _, h]
  rw [List.length_append, List.length_singleton, List.range_succ, List.map_append, hbefore,
    List.map_singleton, Function.update_self]

/-- Outside a word the line has just begun or a separator has been passed. -/
theorem CliGood.between {st : CliState} (h : CliGood line st) (hst : st.ch = false) :
    st.pch = 0 ∨ Sep (line (st.pch - 1)) := by
  have hnot : ¬ (0 < st.pch ∧ ¬ Sep (line (st.pch - 1))) := fun hin => by
    rw [h.ch.mpr hin] at hst
    cases hst
  by_cases hzero : st.pch = 0
  · exact .inl hzero
  · exact .inr (not_not.mp fun hsep => hnot ⟨Nat.pos_of_ne_zero hzero, hsep⟩)

/-- A pass keeps what holds before a stray tab, unless it meets one. -/
theorem CliGood.pass {st st' : CliState} (h : CliGood line st) (hpass : cliPass st = .inl st') :
    CliGood line st' ∨ (StrayTab line st.pch ∧ CliStray line st') := by
  obtain ⟨-, -, hcase⟩ := cliPass_inl hpass
  have hbetween := h.between
  obtain ⟨hnoTab, hbuf, hch, hargC, hargs⟩ := h
  have hhere : st.buf st.pch = line st.pch := by rw [hbuf, cut_self]
  have hsucc : st.pch + 1 - 1 = st.pch := Nat.add_sub_cancel _ _
  have htabs : ¬ StrayTab line st.pch → ∀ k < st.pch + 1, ¬ StrayTab line k := by
    intro hnot k hk
    rcases Nat.lt_succ_iff_lt_or_eq.mp hk with hk | rfl
    · exact hnoTab k hk
    · exact hnot
  cases hcase with
  | first hst hsep =>
    rw [hhere] at hsep
    have hstart : WordStart line st.pch := ⟨hsep, hbetween hst⟩
    have hcount : st.argC = (wordStarts line st.pch).length := by simpa [hst] using hargC
    refine .inl ⟨htabs fun htab => hsep (.inr (.inl htab.1)), ?_, ?_, ?_, ?_⟩
    · rw [hbuf]
      exact (cut_succ_of_not fun h => hsep h.1).symm
    · simp [hsucc, hsep]
    · rw [wordStarts_succ, if_pos hstart, hcount]
      simp
    · rw [wordStarts_succ, if_pos hstart, hcount]
      exact map_update_append hargs st.pch
  | between hst hsep htab =>
    rw [hhere] at hsep htab
    have hnoStart : ¬ WordStart line st.pch := fun h => h.1 hsep
    refine .inl ⟨htabs fun h => htab h.1, ?_, ?_, ?_, ?_⟩
    · rw [hbuf]
      refine (cut_succ_of_not fun h => ?_).symm
      exact (hbetween hst).elim (Nat.ne_of_gt h.2.1) h.2.2
    · simp [hsucc, hsep, hst]
    · rw [wordStarts_succ_of_not hnoStart]
      exact hargC
    · rw [wordStarts_succ_of_not hnoStart]
      exact hargs
  | tab hst htab =>
    have hsep : Sep (line (Function.update st.argV st.argC st.pch st.argC)) := by
      rw [Function.update_self, ← hhere, htab]
      exact .inr (.inl rfl)
    exact .inr ⟨⟨hhere ▸ htab, hbetween hst⟩, st.argC, Nat.lt_succ_self _, hsep⟩
  | inner hst hsep =>
    rw [hhere] at hsep
    have hnoStart : ¬ WordStart line st.pch := fun h =>
      h.2.elim (Nat.ne_of_gt (hch.mp hst).1) (hch.mp hst).2
    refine .inl ⟨htabs fun htab => hsep (.inr (.inl htab.1)), ?_, ?_, ?_, ?_⟩
    · rw [hbuf]
      exact (cut_succ_of_not fun h => hsep h.1).symm
    · simp [hsucc, hsep, hst]
    · rw [wordStarts_succ_of_not hnoStart]
      exact hargC
    · rw [wordStarts_succ_of_not hnoStart]
      exact hargs
  | last hst hsep =>
    rw [hhere] at hsep
    have hprev := hch.mp hst
    have hnoStart : ¬ WordStart line st.pch := fun h => h.1 hsep
    refine .inl ⟨htabs fun htab => htab.2.elim (Nat.ne_of_gt hprev.1) hprev.2, ?_, ?_, ?_, ?_⟩
    · rw [hbuf]
      exact (cut_succ hsep hprev.1 hprev.2).symm
    · simp [hsucc, hsep]
    · rw [wordStarts_succ_of_not hnoStart]
      simpa [hst] using hargC
    · rw [wordStarts_succ_of_not hnoStart]
      exact hargs

/-- What holds from a stray tab on stays. -/
theorem CliStray.pass {st st' : CliState} (h : CliStray line st) (hpass : cliPass st = .inl st') :
    CliStray line st' := by
  obtain ⟨-, -, hcase⟩ := cliPass_inl hpass
  obtain ⟨i, hi, hsep⟩ := h
  have hkept : Sep (line (Function.update st.argV st.argC st.pch i)) := by
    rw [Function.update_of_ne (Nat.ne_of_lt hi)]
    exact hsep
  cases hcase with
  | first => exact ⟨i, hi, hkept⟩
  | between => exact ⟨i, hi, hsep⟩
  | tab => exact ⟨i, Nat.lt_succ_of_lt hi, hkept⟩
  | inner => exact ⟨i, hi, hsep⟩
  | last => exact ⟨i, Nat.lt_succ_of_lt hi, hsep⟩

/-! ## The whole run -/

/-- A word ends somewhere, and there is a NUL behind it in the line that is cut. -/
theorem exists_wordEnds (hend : line len = 0) {p : ℕ} (hp : p ∈ wordStarts line len) :
    ∃ q, WordEnds line len p q ∧ (∀ k, p ≤ k → k < q → cut line len k = line k) ∧
      cut line len q = 0 := by
  obtain ⟨hlt, hstart⟩ := List.mem_filter.mp hp
  have hsep : ¬ Sep (line p) := (of_decide_eq_true hstart).1
  have hex : ∃ q, p < q ∧ (q = len ∨ Sep (line q)) := ⟨len, List.mem_range.mp hlt, .inl rfl⟩
  obtain ⟨hq, hends⟩ := Nat.find_spec hex
  have hle : Nat.find hex ≤ len := Nat.find_min' hex ⟨List.mem_range.mp hlt, .inl rfl⟩
  have hinner : ∀ k, p ≤ k → k < Nat.find hex → ¬ Sep (line k) := by
    intro k hpk hk hsepk
    rcases Nat.eq_or_lt_of_le hpk with rfl | hpk
    · exact hsep hsepk
    · exact Nat.find_min hex hk ⟨hpk, .inr hsepk⟩
  refine ⟨Nat.find hex, ⟨hq, hle, hinner, hends⟩, ?_, ?_⟩
  · intro k hpk hk
    exact if_neg fun h => hinner k hpk hk h.2.1
  · rcases hends with heq | hsepq
    · rw [heq, cut_self, hend]
    · by_cases heq : Nat.find hex = len
      · rw [heq, cut_self, hend]
      · exact if_pos ⟨Nat.lt_of_le_of_ne hle heq, hsepq, Nat.lt_of_le_of_lt (Nat.zero_le p) hq,
          hinner _ (Nat.le_sub_one_of_lt hq) (Nat.sub_lt (Nat.zero_lt_of_lt hq) Nat.one_pos)⟩

/-- What the function does behind the loop to the variables. -/
theorem cliDispatch_st (table : List (List UInt8)) (st : CliState) :
    (cliDispatch table st).st = if st.argC = cliArgSize then st else countLast st := by
  have hdispatch : ∀ st, (dispatchCmd table st).st = st := by
    intro st
    rw [dispatchCmd]
    split
    · rfl
    · split <;> rfl
  rw [cliDispatch]
  split
  · rfl
  · exact hdispatch _

/-- No entry is changed, and no entry is uncounted. -/
theorem cliDispatch_argV (table : List (List UInt8)) (st : CliState) :
    (cliDispatch table st).st.argV = st.argV ∧ st.argC ≤ (cliDispatch table st).st.argC := by
  rw [cliDispatch_st, countLast]
  split
  · exact ⟨rfl, Nat.le_refl _⟩
  · split
    · exact ⟨rfl, Nat.le_succ _⟩
    · exact ⟨rfl, Nat.le_refl _⟩

/-- What holds at any time in a run. -/
def CliInv (line : Mem) (len : ℕ) (st : CliState) : Prop :=
  CliInside len st ∧ (CliGood line st ∨ ((∃ k < len, StrayTab line k) ∧ CliStray line st))

theorem CliInv.pass {st st' : CliState} (h : CliInv line len st) (hpass : cliPass st = .inl st') :
    CliInv line len st' := by
  obtain ⟨hinside, hor⟩ := h
  have hlt := hinside.lt (cliPass_inl hpass).1
  refine ⟨(hinside.pass hpass).1, ?_⟩
  rcases hor with hgood | ⟨htab, hstray⟩
  · exact (hgood.pass hpass).imp_right fun h => ⟨⟨st.pch, hlt, h.1⟩, h.2⟩
  · exact .inr ⟨htab, hstray.pass hpass⟩

theorem cliInv_start (argV : ℕ → ℕ) (hend : line len = 0) :
    CliInv line len ⟨line, argV, 0, false, 0, []⟩ := by
  refine ⟨⟨Nat.zero_le _, hend, by simp⟩, .inl ⟨by simp, (cut_zero line).symm, by simp, ?_, ?_⟩⟩
  · rfl
  · rfl

/-- Where the loop is left: at the end of the line, or with `sgArgV` full. -/
theorem cliInv_of_passes {argV : ℕ → ℕ} (hend : line len = 0) {n : ℕ} {st : CliState}
    (h : passes cliPass n ⟨line, argV, 0, false, 0, []⟩ = some st) :
    CliInv line len st ∧ (st.buf st.pch = 0 ∨ cliArgSize ≤ st.argC) := by
  refine Loops.of_passes (I := CliInv line len)
    (Q := fun st => CliInv line len st ∧ (st.buf st.pch = 0 ∨ cliArgSize ≤ st.argC))
    ?_ (fun st st' h hpass => h.pass hpass) (cliInv_start argV hend) h
  intro st st' hinv hleave
  obtain ⟨rfl, hor⟩ := cliPass_inr hleave
  exact ⟨hinv, hor⟩

/-- With few words and no stray tab met, the loop is left at the end of the line. -/
theorem CliGood.at_end {st : CliState} (h : CliGood line st) (hinside : CliInside len st)
    (hline : ∀ k < len, line k ≠ 0) (hfew : (wordStarts line len).length < cliArgSize)
    (hleft : st.buf st.pch = 0 ∨ cliArgSize ≤ st.argC) : st.pch = len := by
  have hle := length_wordStarts_le line hinside.le
  have hargC := h.argC
  rcases hleft with hzero | hfull
  · by_contra hne
    rw [h.buf, cut_self] at hzero
    exact hline _ (Nat.lt_of_le_of_ne hinside.le hne) hzero
  · omega

/-- A line that is split rightly has no stray tab. -/
theorem RunCmdRight.noTab {table : List (List UInt8)} {argV : ℕ → ℕ} {n : ℕ} {r : CliResult}
    (hright : RunCmdRight line len r) (hr : cliRunCmd table argV line n = some r)
    (hend : line len = 0) (hline : ∀ k < len, line k ≠ 0)
    (hfew : (wordStarts line len).length < cliArgSize) : ∀ k < len, ¬ StrayTab line k := by
  intro k hk htab
  obtain ⟨st, hst, rfl⟩ := Option.map_eq_some_iff.mp hr
  obtain ⟨⟨hinside, hor⟩, hleft⟩ := cliInv_of_passes hend hst
  rcases hor with hgood | ⟨-, i, hi, hsep⟩
  · have hpch := hgood.at_end hinside hline hfew hleft
    exact hgood.noTab k (by rw [hpch]; exact hk) htab
  · -- the entry that points to a separator is none of the words
    have hargs := (hright.split hfew).args
    obtain ⟨hargV, hargC⟩ := cliDispatch_argV table st
    rw [hargV] at hargs
    have hmem : st.argV i ∈ wordStarts line len := by
      rw [← hargs]
      exact List.mem_map_of_mem (List.mem_range.mpr (Nat.lt_of_lt_of_le hi hargC))
    exact (of_decide_eq_true (List.mem_filter.mp hmem).2).1 hsep

/-- Where the loop is left with no stray tab met and few words, the line is split rightly. -/
theorem CliGood.splitRight {st : CliState} (h : CliGood line st) (hinside : CliInside len st)
    (hleft : st.buf st.pch = 0 ∨ cliArgSize ≤ st.argC) (hend : line len = 0)
    (hline : ∀ k < len, line k ≠ 0) (hfew : (wordStarts line len).length < cliArgSize)
    (table : List (List UInt8)) : SplitRight line len (cliDispatch table st).st := by
  have hpch := h.at_end hinside hline hfew hleft
  obtain ⟨-, hbuf, -, hargC, hargs⟩ := h
  rw [hpch] at hbuf hargC hargs
  have hne : st.argC ≠ cliArgSize := by omega
  rw [cliDispatch_st, if_neg hne, countLast]
  cases hch : st.ch with
  | true =>
    rw [hch, if_pos rfl] at hargC
    rw [if_pos rfl]
    exact ⟨hargC ▸ hargs, fun p hp => hbuf ▸ exists_wordEnds hend hp⟩
  | false =>
    rw [hch, if_neg Bool.false_ne_true, Nat.add_zero] at hargC
    rw [if_neg Bool.false_ne_true]
    exact ⟨hargC ▸ hargs, fun p hp => hbuf ▸ exists_wordEnds hend hp⟩

/-- On every line, of any length and with any characters, the function returns, writes no entry of
`sgArgV` beyond its end and, if there are fewer words than entries, leaves the words there, exactly
when, in the latter case, every tab stands behind a word. -/
theorem cliRunCmd_right_iff (table : List (List UInt8)) (argV : ℕ → ℕ) (line : Mem) (len : ℕ)
    (hend : line len = 0) (hline : ∀ k < len, line k ≠ 0) :
    (∃ n r, cliRunCmd table argV line n = some r ∧ RunCmdRight line len r)
      ↔ ((wordStarts line len).length < cliArgSize → ∀ k < len, ¬ StrayTab line k) := by
  constructor
  · rintro ⟨n, r, hr, hright⟩ hfew
    exact hright.noTab hr hend hline hfew
  · intro hcond
    obtain ⟨st, hst⟩ := passes_cliPass (cliInv_start argV hend).1
    obtain ⟨⟨hinside, hor⟩, hleft⟩ := cliInv_of_passes hend hst
    refine ⟨len + 1, cliDispatch table st, ?_, ?_, ?_⟩
    · rw [cliRunCmd, hst]
      rfl
    · rw [cliDispatch_st, countLast]
      split
      · exact hinside.written
      · split <;> exact hinside.written
    · intro hfew
      have hgood : CliGood line st := hor.resolve_right fun h =>
        h.1.elim fun k hk => hcond hfew k hk.1 hk.2
      exact hgood.splitRight hinside hleft hend hline hfew table

/-- The line `a`, tab, space, `b`. -/
theorem cliRunCmd_right_tab_behind_word :
    ∃ n r, cliRunCmd [] (fun _ => 0) (fun i => [0x61, 0x09, 0x20, 0x62].getD i 0) n = some r ∧
      RunCmdRight (fun i => [0x61, 0x09, 0x20, 0x62].getD i 0) 4 r :=
  (cliRunCmd_right_iff _ _ _ 4 rfl (by decide)).mpr (by decide)

/-- The line `a`, space, tab, `b`: between the words there is an empty one. -/
theorem not_right_tab_behind_space :
    ¬ ∃ n r, cliRunCmd [] (fun _ => 0) (fun i => [0x61, 0x20, 0x09, 0x62].getD i 0) n = some r ∧
      RunCmdRight (fun i => [0x61, 0x20, 0x09, 0x62].getD i 0) 4 r := by
  rintro ⟨n, r, hr, hright⟩
  exact hright.noTab hr rfl (by decide) (by decide) 2 (by decide) (by decide)

end Fullmac.Text
