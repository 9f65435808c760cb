import CommandScript.Dialect

/-
  Group markers in the lines of a script. An opening line is
  matched by the first closing line with which more groups
  have been closed than opened after it. The opening lines
  that are not matched yet form a stack: an opening line is
  put on top of it, and a closing line takes the top away.

  Key definitions include:
    * `Dialect.openings`
    * `Dialect.closings`
    * `Dialect.Covers`
    * `Dialect.Unmatched`
    * `Dialect.Pending`
    * `Dialect.Peaks`

  Main statements:
    * `Dialect.Pending.push`
    * `Dialect.Pending.pop`
    * `Dialect.Pending.first`
-/

namespace CommandScript

/- Where a list can be split that ends with an element. -/
theorem concat_eq_split_iff
    {α : Type}
    {lines before after : List α}
    {last line : α} :
    lines ++ [last] = before ++ line :: after ↔
      (before = lines ∧ line = last ∧ after = []) ∨
        ∃ rest,
          after = rest ++ [last] ∧
            lines = before ++ line :: rest := by
  constructor
  · intro hSplit
    rcases List.eq_nil_or_concat after with rfl | hAfter
    · rcases List.append_inj' hSplit rfl with ⟨rfl, hLast⟩
      cases hLast
      exact .inl ⟨rfl, rfl, rfl⟩
    · rcases hAfter with ⟨rest, other, rfl⟩
      rw [List.concat_eq_append] at hSplit ⊢
      rw [← List.cons_append, ← List.append_assoc] at hSplit
      rcases List.append_inj' hSplit rfl with ⟨rfl, hLast⟩
      cases hLast
      exact .inr ⟨rest, rfl, rfl⟩
  · intro hSplit
    rcases hSplit with ⟨rfl, rfl, rfl⟩ | ⟨rest, rfl, rfl⟩
    · rfl
    · simp

namespace Dialect

------------------------------------------------------------
-- Counting Markers
------------------------------------------------------------

section Counting

variable (d : Dialect)

/- The number of lines that open a group. -/
def openings (lines : List (List Char)) : Nat :=
  lines.countP fun raw => d.role raw = .opening

/- The number of lines that close a group. -/
def closings (lines : List (List Char)) : Nat :=
  lines.countP fun raw => d.role raw = .closing

/- Every closing line is preceded by an opening for it. -/
def Covers (lines : List (List Char)) : Prop :=
  ∀ before, before <+: lines →
    d.closings before ≤ d.openings before

variable (lines : List (List Char)) (raw : List Char)

theorem openings_concat :
    d.openings (lines ++ [raw]) =
      d.openings lines +
        if d.role raw = .opening then 1 else 0 := by
  simp [openings, List.countP_append, List.countP_cons]

theorem closings_concat :
    d.closings (lines ++ [raw]) =
      d.closings lines +
        if d.role raw = .closing then 1 else 0 := by
  simp [closings, List.countP_append, List.countP_cons]

/- One more line must be covered by all before it. -/
theorem covers_concat :
    d.Covers (lines ++ [raw]) ↔
      d.Covers lines ∧
        d.closings (lines ++ [raw]) ≤
          d.openings (lines ++ [raw]) := by
  constructor
  · intro hCovers
    refine ⟨?_, hCovers _ List.prefix_rfl⟩
    intro before hBefore
    apply hCovers
    exact hBefore.trans (List.prefix_append lines [raw])
  · intro hCovers before hBefore
    rcases hCovers with ⟨hLines, hLast⟩
    rcases List.prefix_concat_iff.mp hBefore with
      rfl | hBefore
    · exact hLast
    · exact hLines before hBefore

/- No lines need no openings. -/
theorem covers_nil : d.Covers [] := by
  intro before hBefore
  rw [List.prefix_nil.mp hBefore]
  exact Nat.le_refl _

end Counting

------------------------------------------------------------
-- Unmatched Openings
------------------------------------------------------------

section Unmatched

variable (d : Dialect)

/-
  A group that opens on a line is not closed on the lines
  after it.
-/
def Unmatched
    (lines : List (List Char))
    (number : Nat) : Prop :=
  ∃ before raw after,
    lines = before ++ raw :: after ∧
      number = before.length + 1 ∧
        d.role raw = .opening ∧
          d.Covers after

/-
  The same, when so many groups that open after it are not
  closed either.
-/
def UnmatchedAt
    (lines : List (List Char))
    (number rank : Nat) : Prop :=
  ∃ before raw after,
    lines = before ++ raw :: after ∧
      number = before.length + 1 ∧
        d.role raw = .opening ∧
          d.Covers after ∧
            d.openings after = d.closings after + rank

variable {d}
variable {lines : List (List Char)}
variable {raw : List Char}
variable {number rank : Nat}

/- Every unmatched opening has a rank. -/
theorem unmatched_iff :
    d.Unmatched lines number ↔
      ∃ rank, d.UnmatchedAt lines number rank := by
  constructor
  · intro hUnmatched
    rcases hUnmatched with
      ⟨before, raw, after, hLines, hNumber, hRole, hCovers⟩
    have hLe := hCovers after List.prefix_rfl
    exact
      ⟨d.openings after - d.closings after, before, raw,
        after, hLines, hNumber, hRole, hCovers, by omega⟩
  · intro hUnmatched
    rcases hUnmatched with
      ⟨_, before, raw, after, hLines, hNumber, hRole,
        hCovers, _⟩
    exact
      ⟨before, raw, after, hLines, hNumber, hRole, hCovers⟩

/- An opening that is unmatched is on one of the lines. -/
theorem Unmatched.bounds
    (hUnmatched : d.Unmatched lines number) :
    1 ≤ number ∧ number ≤ lines.length := by
  rcases hUnmatched with ⟨before, raw, after, rfl, rfl, _⟩
  simp only [List.length_append, List.length_cons]
  omega

/- No lines leave nothing unmatched. -/
theorem not_unmatchedAt_nil :
    ¬ d.UnmatchedAt [] number rank := by
  intro hUnmatched
  rcases hUnmatched with ⟨before, raw, after, hLines, _⟩
  cases before <;> cases hLines

/- An unmatched opening is the last line or one before. -/
theorem unmatchedAt_concat :
    d.UnmatchedAt (lines ++ [raw]) number rank ↔
      (number = lines.length + 1 ∧ rank = 0 ∧
          d.role raw = .opening) ∨
        ∃ before line after,
          lines = before ++ line :: after ∧
            number = before.length + 1 ∧
              d.role line = .opening ∧
                d.Covers (after ++ [raw]) ∧
                  d.openings (after ++ [raw]) =
                    d.closings (after ++ [raw]) + rank := by
  constructor
  · intro hUnmatched
    rcases hUnmatched with
      ⟨before, line, after, hLines, hNumber, hRole,
        hCovers, hRank⟩
    rcases concat_eq_split_iff.mp hLines with
      ⟨rfl, rfl, rfl⟩ | ⟨rest, rfl, hRest⟩
    · have hZero : 0 = 0 + rank := hRank
      exact .inl ⟨hNumber, by omega, hRole⟩
    · exact
        .inr
          ⟨before, line, rest, hRest, hNumber, hRole,
            hCovers, hRank⟩
  · intro hUnmatched
    rcases hUnmatched with
      ⟨hNumber, rfl, hRole⟩ |
      ⟨before, line, after, hLines, hNumber, hRole,
        hCovers, hRank⟩
    · exact
        ⟨lines, raw, [], rfl, hNumber, hRole, d.covers_nil,
          rfl⟩
    · refine
        ⟨before, line, after ++ [raw], ?_, hNumber, hRole,
          hCovers, hRank⟩
      simp [hLines]

/- A line that is no marker changes nothing. -/
theorem unmatchedAt_concat_plain
    (hOpening : d.role raw ≠ .opening)
    (hClosing : d.role raw ≠ .closing) :
    d.UnmatchedAt (lines ++ [raw]) number rank ↔
      d.UnmatchedAt lines number rank := by
  simp only [unmatchedAt_concat, covers_concat,
    openings_concat, closings_concat, hOpening, hClosing,
    if_false, and_false, false_or, Nat.add_zero]
  constructor
  · intro hUnmatched
    rcases hUnmatched with
      ⟨before, line, after, hLines, hNumber, hRole,
        ⟨hCovers, _⟩, hRank⟩
    exact
      ⟨before, line, after, hLines, hNumber, hRole,
        hCovers, hRank⟩
  · intro hUnmatched
    rcases hUnmatched with
      ⟨before, line, after, hLines, hNumber, hRole,
        hCovers, hRank⟩
    exact
      ⟨before, line, after, hLines, hNumber, hRole,
        ⟨hCovers, by omega⟩, hRank⟩

/- A closing line matches the last opening that is not. -/
theorem unmatchedAt_concat_closing
    (hRole : d.role raw = .closing) :
    d.UnmatchedAt (lines ++ [raw]) number rank ↔
      d.UnmatchedAt lines number (rank + 1) := by
  simp only [unmatchedAt_concat, covers_concat,
    openings_concat, closings_concat, hRole, reduceCtorEq,
    if_false, if_true, and_false, false_or, Nat.add_zero]
  constructor
  · intro hUnmatched
    rcases hUnmatched with
      ⟨before, line, after, hLines, hNumber, hLine,
        ⟨hCovers, _⟩, hRank⟩
    exact
      ⟨before, line, after, hLines, hNumber, hLine,
        hCovers, by omega⟩
  · intro hUnmatched
    rcases hUnmatched with
      ⟨before, line, after, hLines, hNumber, hLine,
        hCovers, hRank⟩
    exact
      ⟨before, line, after, hLines, hNumber, hLine,
        ⟨hCovers, by omega⟩, by omega⟩

/- An opening line is unmatched, as are those before it. -/
theorem unmatchedAt_concat_opening
    (hRole : d.role raw = .opening) :
    d.UnmatchedAt (lines ++ [raw]) number rank ↔
      (number = lines.length + 1 ∧ rank = 0) ∨
        ∃ outer,
          rank = outer + 1 ∧
            d.UnmatchedAt lines number outer := by
  simp only [unmatchedAt_concat, covers_concat,
    openings_concat, closings_concat, hRole, reduceCtorEq,
    if_false, if_true, and_true, Nat.add_zero]
  constructor
  · intro hUnmatched
    rcases hUnmatched with
      hHere |
      ⟨before, line, after, hLines, hNumber, hLine,
        ⟨hCovers, _⟩, hRank⟩
    · exact .inl hHere
    · have hLe := hCovers after List.prefix_rfl
      exact
        .inr
          ⟨rank - 1, by omega, before, line, after, hLines,
            hNumber, hLine, hCovers, by omega⟩
  · intro hUnmatched
    rcases hUnmatched with
      hHere |
      ⟨outer, rfl, before, line, after, hLines, hNumber,
        hLine, hCovers, hRank⟩
    · exact .inl hHere
    · exact
        .inr
          ⟨before, line, after, hLines, hNumber, hLine,
            ⟨hCovers, by omega⟩, by omega⟩

/- An opening with more unmatched after it comes before. -/
theorem UnmatchedAt.le
    {other otherRank : Nat}
    (hFirst : d.UnmatchedAt lines number rank)
    (hOther : d.UnmatchedAt lines other otherRank)
    (hRanks : otherRank ≤ rank) :
    number ≤ other := by
  rcases hFirst with
    ⟨before, line, after, hLines, rfl, hLine, hCovers,
      hRank⟩
  rcases hOther with
    ⟨before', line', after', hLines', rfl, hLine', hCovers',
      hRank'⟩
  rw [hLines'] at hLines
  rcases List.append_eq_append_iff.mp hLines with
    ⟨mid, hBefore, hMid⟩ | ⟨mid, hBefore, hMid⟩
  · cases mid with
    | nil => simp [hBefore]
    -- The other opening would have a greater rank.
    | cons head mid =>
        have hAfter : after' = mid ++ line :: after :=
          (List.cons.inj hMid).2
        have hMidCovered :=
          hCovers' mid (hAfter ▸ List.prefix_append mid _)
        have hCounts :
            d.openings after' =
                d.openings mid + d.openings after + 1 ∧
              d.closings after' =
                d.closings mid + d.closings after := by
          rw [hAfter]
          simp only [openings, closings,
            List.countP_append, List.countP_cons, hLine]
          simp only [decide_true, if_true, reduceCtorEq,
            decide_false, Bool.false_eq_true, if_false]
          omega
        omega
  · rw [hBefore]
    simp

end Unmatched

------------------------------------------------------------
-- The Stack of Pending Openings
------------------------------------------------------------

/-
  The numbers of the lines that open a group and are not
  matched, the innermost first.
-/
structure Pending
    (d : Dialect)
    (lines : List (List Char))
    (pending : List Nat) : Prop where
  covered : d.Covers lines
  balanced :
    d.openings lines = d.closings lines + pending.length
  ranked :
    ∀ number rank,
      d.UnmatchedAt lines number rank ↔
        pending[rank]? = some number

namespace Pending

variable {d : Dialect}
variable {lines : List (List Char)}
variable {raw : List Char}
variable {pending : List Nat}

/- Nothing is pending at the start. -/
theorem nil (d : Dialect) : d.Pending [] [] where
  covered := d.covers_nil
  balanced := rfl
  ranked := by
    intro number rank
    simp [not_unmatchedAt_nil]

/- Only markers change what is pending. -/
theorem skip
    (hPending : d.Pending lines pending)
    (hOpening : d.role raw ≠ .opening)
    (hClosing : d.role raw ≠ .closing) :
    d.Pending (lines ++ [raw]) pending := by
  have hCovers := hPending.covered lines List.prefix_rfl
  have hBalanced := hPending.balanced
  refine ⟨?_, ?_, ?_⟩
  · rw [covers_concat, openings_concat, closings_concat,
      if_neg hOpening, if_neg hClosing]
    exact ⟨hPending.covered, hCovers⟩
  · rw [openings_concat, closings_concat,
      if_neg hOpening, if_neg hClosing]
    exact hBalanced
  · intro number rank
    rw [unmatchedAt_concat_plain hOpening hClosing]
    exact hPending.ranked number rank

/- An opening line is put on top. -/
theorem push
    (hPending : d.Pending lines pending)
    (hRole : d.role raw = .opening) :
    d.Pending (lines ++ [raw])
      ((lines.length + 1) :: pending) := by
  have hCovers := hPending.covered lines List.prefix_rfl
  have hBalanced := hPending.balanced
  refine ⟨?_, ?_, ?_⟩
  · rw [covers_concat, openings_concat, closings_concat,
      hRole]
    simp only [if_true, reduceCtorEq, if_false]
    exact ⟨hPending.covered, by omega⟩
  · rw [openings_concat, closings_concat, hRole]
    simp only [if_true, reduceCtorEq, if_false,
      List.length_cons]
    omega
  · intro number rank
    rw [unmatchedAt_concat_opening hRole]
    cases rank with
    | zero => simp [eq_comm]
    | succ rank => simp [hPending.ranked]

/- A closing line takes the top away. -/
theorem pop
    {number : Nat}
    (hPending : d.Pending lines (number :: pending))
    (hRole : d.role raw = .closing) :
    d.Pending (lines ++ [raw]) pending := by
  have hBalanced := hPending.balanced
  simp only [List.length_cons] at hBalanced
  refine ⟨?_, ?_, ?_⟩
  · rw [covers_concat, openings_concat, closings_concat,
      hRole]
    simp only [if_true, reduceCtorEq, if_false]
    exact ⟨hPending.covered, by omega⟩
  · rw [openings_concat, closings_concat, hRole]
    simp only [if_true, reduceCtorEq, if_false]
    omega
  · intro other rank
    rw [unmatchedAt_concat_closing hRole, hPending.ranked]
    simp

/- What is pending is what is unmatched. -/
theorem unmatched_iff_mem
    (hPending : d.Pending lines pending)
    (number : Nat) :
    d.Unmatched lines number ↔ number ∈ pending := by
  rw [unmatched_iff, List.mem_iff_getElem?]
  constructor
  · intro hRank
    rcases hRank with ⟨rank, hRank⟩
    exact ⟨rank, (hPending.ranked number rank).mp hRank⟩
  · intro hRank
    rcases hRank with ⟨rank, hRank⟩
    exact ⟨rank, (hPending.ranked number rank).mpr hRank⟩

/- The last of the stack is the first in the text. -/
theorem first
    {number : Nat}
    (hPending : d.Pending lines pending)
    (hLast : pending.getLast? = some number) :
    d.Unmatched lines number ∧
      ∀ other, d.Unmatched lines other →
        number ≤ other := by
  rw [List.getLast?_eq_getElem?] at hLast
  have hFirst := (hPending.ranked number _).mpr hLast
  refine ⟨unmatched_iff.mpr ⟨_, hFirst⟩, ?_⟩
  intro other hOther
  rcases unmatched_iff.mp hOther with ⟨rank, hRank⟩
  have hBound : rank < pending.length := by
    have hOther := (hPending.ranked other rank).mp hRank
    exact (List.getElem?_eq_some_iff.mp hOther).1
  exact hFirst.le hRank (by omega)

end Pending

------------------------------------------------------------
-- The Greatest Balance
------------------------------------------------------------

/-
  The greatest number by which openings are ahead of
  closings anywhere in some lines.
-/
def Peaks
    (d : Dialect)
    (lines : List (List Char))
    (peak : Nat) : Prop :=
  (∀ part, part <+: lines →
      d.openings part ≤ d.closings part + peak) ∧
    ∃ part, part <+: lines ∧
      d.openings part = d.closings part + peak

namespace Peaks

variable {d : Dialect}
variable {lines : List (List Char)}
variable {raw : List Char}
variable {peak : Nat}

/- Without lines nothing is ahead. -/
theorem nil (d : Dialect) : d.Peaks [] 0 := by
  refine ⟨?_, [], List.prefix_rfl, rfl⟩
  intro part hPart
  rw [List.prefix_nil.mp hPart]
  exact Nat.zero_le _

/- A line that opens nothing does not raise the peak. -/
theorem stay
    (hPeaks : d.Peaks lines peak)
    (hRole : d.role raw ≠ .opening) :
    d.Peaks (lines ++ [raw]) peak := by
  rcases hPeaks with ⟨hBound, top, hTop, hPeak⟩
  have hLines := hBound lines List.prefix_rfl
  refine
    ⟨?_, top, hTop.trans (List.prefix_append lines [raw]),
      hPeak⟩
  intro part hPart
  rcases List.prefix_concat_iff.mp hPart with rfl | hPart
  · rw [openings_concat, closings_concat, if_neg hRole]
    omega
  · exact hBound part hPart

/- The balance after a line may be a new peak. -/
theorem concat
    {height : Nat}
    (hPeaks : d.Peaks lines peak)
    (hHeight :
      d.openings (lines ++ [raw]) =
        d.closings (lines ++ [raw]) + height) :
    d.Peaks (lines ++ [raw]) (max peak height) := by
  rcases hPeaks with ⟨hBound, top, hTop, hPeak⟩
  refine ⟨?_, ?_⟩
  · intro part hPart
    rcases List.prefix_concat_iff.mp hPart with rfl | hPart
    · omega
    · have hLe := hBound part hPart
      omega
  · by_cases hHigher : peak ≤ height
    · refine ⟨lines ++ [raw], List.prefix_rfl, ?_⟩
      omega
    · refine
        ⟨top, hTop.trans (List.prefix_append lines [raw]),
          ?_⟩
      omega

end Peaks

end Dialect

end CommandScript
