import CommandScript.Proofs.Invocations
import Mathlib.Algebra.Group.Nat.Even
import Mathlib.Data.List.Induction

/-
  Where a quoted value ends. A quote closes the value unless
  it is escaped, and it is escaped if it stands behind an
  odd number of backslashes. The first quote that is not
  escaped is the one that is found, and what stands before
  it is decoded.

  Key definitions include:
    * `Text.backslashesAtEnd`
    * `Invocation.decode`
    * `Invocation.IsClosed`
    * `Invocation.Spells`

  Main statements:
    * `Text.even_backslashes_append_iff`
    * `Invocation.length_le_of_unescaped`
    * `Invocation.exists_body_of_unescaped`
    * `Invocation.readQuoted_up_to_closing_quote`
-/

namespace CommandScript

------------------------------------------------------------
-- Runs of Backslashes
------------------------------------------------------------

namespace Text

/- How many backslashes a text ends with. -/
def backslashesAtEnd (s : List Char) : Nat :=
  (s.reverse.takeWhile (· == '\\')).length

/- A run goes on with a backslash and ends with all else. -/
theorem backslashesAtEnd_concat
    (s : List Char)
    (c : Char) :
    backslashesAtEnd (s ++ [c]) =
      if c = '\\' then backslashesAtEnd s + 1 else 0 := by
  unfold backslashesAtEnd
  by_cases hc : c = '\\'
  · simp [hc]
  · simp [hc]

/-
  Behind an even run there is an even run exactly if there
  is one without the text in front.
-/
theorem even_backslashes_append_iff
    {front : List Char}
    (hFront : Even (backslashesAtEnd front))
    (s : List Char) :
    Even (backslashesAtEnd (front ++ s)) ↔
      Even (backslashesAtEnd s) := by
  induction s using List.reverseRecOn with
  | nil =>
      rw [List.append_nil]
      exact iff_of_true hFront Even.zero
  | append_singleton s c ih =>
      rw [← List.append_assoc, backslashesAtEnd_concat,
        backslashesAtEnd_concat]
      split
      · rw [Nat.even_add_one, Nat.even_add_one, ih]
      · rfl

end Text

open Text (backslashesAtEnd backslashesAtEnd_concat)

/- A piece ends with an even run. -/
theorem Piece.even_backslashes
    (piece : Piece) :
    Even (backslashesAtEnd piece.text) := by
  cases piece with
  | plain c hPlain =>
      have hRun := backslashesAtEnd_concat [] c
      rw [if_neg hPlain.2] at hRun
      exact hRun ▸ Even.zero
  | escape c =>
      have hRun := backslashesAtEnd_concat ['\\'] c
      -- A backslash that is escaped makes the run two long.
      have hOne : backslashesAtEnd ['\\'] + 1 = 2 := by
        decide
      rw [hOne] at hRun
      change Even (backslashesAtEnd (['\\'] ++ [c]))
      rw [hRun]
      split <;> decide

/- Pieces in front do not change whether a run is even. -/
theorem Piece.even_backslashes_textOfAll_append_iff
    (body : List Piece)
    (s : List Char) :
    Even (backslashesAtEnd (textOfAll body ++ s)) ↔
      Even (backslashesAtEnd s) := by
  induction body with
  | nil => rfl
  | cons piece body ih =>
      unfold textOfAll at ih ⊢
      rw [List.flatMap_cons, List.append_assoc,
        Text.even_backslashes_append_iff
          piece.even_backslashes, ih]

namespace Invocation

------------------------------------------------------------
-- Closing Quotes
------------------------------------------------------------

/-
  What a text between quotes stands for. Each backslash
  belongs to the character after it.
-/
def decode : List Char → List Char
| [] => []
| '\\' :: c :: rest =>
    (Piece.escape c).meaning ++ decode rest
| c :: rest => c :: decode rest

/- Pieces are decoded as what they stand for. -/
theorem decode_textOfAll
    (body : List Piece) :
    decode (Piece.textOfAll body) =
      Piece.meaningOfAll body := by
  induction body with
  | nil => rfl
  | cons piece body ih =>
      unfold Piece.textOfAll Piece.meaningOfAll at ih ⊢
      rw [List.flatMap_cons, List.flatMap_cons, ← ih]
      cases piece with
      | plain c hPlain =>
          unfold Piece.text Piece.meaning
          rw [List.singleton_append, decode,
            List.singleton_append]
          exact fun _ _ hEscape _ => hPlain.2 hEscape
      | escape c => rfl

/- A quote at some place of a text that is not escaped. -/
structure IsUnescaped
    (s before rest : List Char) : Prop where
  text : s = before ++ '"' :: rest
  even : Even (backslashesAtEnd before)

/-
  A text after an opening quote is closed at a place: there
  is the first quote that is not escaped.
-/
structure IsClosed
    (s before rest : List Char) : Prop where
  unescaped : IsUnescaped s before rest
  first :
    ∀ early late,
      IsUnescaped s early late →
        before.length ≤ early.length

section Closing

variable {s before before' rest rest' : List Char}
variable {body : List Piece}

/- A text is closed at one place only. -/
theorem IsClosed.unique
    (hClosed : IsClosed s before rest)
    (hClosed' : IsClosed s before' rest') :
    before = before' ∧ rest = rest' := by
  have hLength : before.length = before'.length :=
    Nat.le_antisymm
      (hClosed.first _ _ hClosed'.unescaped)
      (hClosed'.first _ _ hClosed.unescaped)
  have hText :=
    hClosed.unescaped.text.symm.trans
      hClosed'.unescaped.text
  rcases List.append_inj hText hLength with
    ⟨hBefore, hRest⟩
  exact ⟨hBefore, (List.cons.inj hRest).2⟩

/- No quote inside pieces is unescaped. -/
theorem length_le_of_unescaped
    (hUnescaped :
      IsUnescaped (Piece.textOfAll body ++ '"' :: rest)
        before rest') :
    (Piece.textOfAll body).length ≤ before.length := by
  rcases hUnescaped with ⟨hText, hEven⟩
  induction body generalizing before with
  | nil => exact Nat.zero_le _
  | cons piece body ih =>
      -- The run before the quote has to span the piece.
      have hSpan :
          ∃ inner,
            before = piece.text ++ inner ∧
              Piece.textOfAll body ++ '"' :: rest =
                inner ++ '"' :: rest' := by
        unfold Piece.textOfAll at hText ⊢
        rw [List.flatMap_cons, List.append_assoc] at hText
        cases piece with
        | plain c hPlain =>
            cases before with
            | nil =>
                exact
                  absurd (List.cons.inj hText).1 hPlain.1
            | cons d inner =>
                rcases List.cons.inj hText with ⟨rfl, hInner⟩
                exact ⟨inner, rfl, hInner⟩
        | escape c =>
            cases before with
            | nil =>
                exact
                  absurd (List.cons.inj hText).1 (by decide)
            | cons d inner =>
                rcases List.cons.inj hText with ⟨rfl, hTail⟩
                cases inner with
                | nil => exact absurd hEven (by decide)
                | cons d inner =>
                    rcases List.cons.inj hTail with
                      ⟨rfl, hInner⟩
                    exact ⟨inner, rfl, hInner⟩
      rcases hSpan with ⟨inner, rfl, hInner⟩
      rw [Text.even_backslashes_append_iff
        piece.even_backslashes] at hEven
      have hLength := ih hInner hEven
      unfold Piece.textOfAll at hLength ⊢
      rw [List.flatMap_cons, List.length_append,
        List.length_append]
      exact Nat.add_le_add_left hLength _

/- Pieces before a quote are closed by that quote. -/
theorem isClosed_textOfAll
    (body : List Piece)
    (rest : List Char) :
    IsClosed (Piece.textOfAll body ++ '"' :: rest)
      (Piece.textOfAll body) rest := by
  have hEven :=
    (Piece.even_backslashes_textOfAll_append_iff body
      []).mpr Even.zero
  rw [List.append_nil] at hEven
  exact
    ⟨⟨rfl, hEven⟩,
      fun _ _ hUnescaped =>
        length_le_of_unescaped hUnescaped⟩

/-
  Where a quote is not escaped, pieces end at that quote or
  at one before it.
-/
theorem exists_body_of_unescaped
    (rest : List Char)
    (hEven : Even (backslashesAtEnd before)) :
    ∃ body rest',
      before ++ '"' :: rest =
        Piece.textOfAll body ++ '"' :: rest' := by
  induction before using readQuoted.induct with
  | case1 => exact ⟨[], rest, rfl⟩
  | case2 tail => exact ⟨[], tail ++ '"' :: rest, rfl⟩
  | case3 => exact absurd hEven (by decide)
  | case4 c tail ih =>
      have hPiece := (Piece.escape c).even_backslashes
      have hTail :=
        (Text.even_backslashes_append_iff hPiece tail).mp
          hEven
      rcases ih hTail with ⟨body, rest', hText⟩
      refine ⟨.escape c :: body, rest', ?_⟩
      rw [List.cons_append, List.cons_append, hText]
      rfl
  | case5 c tail hQuote hLast hEscape ih =>
      have hBackslash : c ≠ '\\' := by
        rintro rfl
        cases tail with
        | nil => exact hLast rfl rfl
        | cons next tail => exact hEscape next tail rfl rfl
      have hPlain : c ≠ '"' ∧ c ≠ '\\' :=
        ⟨hQuote, hBackslash⟩
      have hPiece := (Piece.plain c hPlain).even_backslashes
      have hTail :=
        (Text.even_backslashes_append_iff hPiece tail).mp
          hEven
      rcases ih hTail with ⟨body, rest', hText⟩
      refine ⟨.plain c hPlain :: body, rest', ?_⟩
      rw [List.cons_append, hText]
      rfl

/- What is closed is read up to there, and decoded. -/
theorem readQuoted_of_isClosed
    (hClosed : IsClosed s before rest) :
    readQuoted s = some (decode before, rest) := by
  rcases exists_body_of_unescaped rest
      hClosed.unescaped.even with
    ⟨body, rest', hText⟩
  rw [← hClosed.unescaped.text] at hText
  subst hText
  rcases hClosed.unique (isClosed_textOfAll body rest') with
    ⟨rfl, rfl⟩
  rw [readQuoted_textOfAll, decode_textOfAll]

/- What is read was closed where the reading ended. -/
theorem exists_isClosed_of_readQuoted
    {value : List Char}
    (hRead : readQuoted s = some (value, rest)) :
    ∃ before, IsClosed s before rest ∧ decode before = value :=
    by
  rcases exists_body_of_readQuoted hRead with
    ⟨body, rfl, rfl⟩
  exact
    ⟨Piece.textOfAll body, isClosed_textOfAll body rest,
      decode_textOfAll body⟩

end Closing

------------------------------------------------------------
-- Escaped Values
------------------------------------------------------------

/-
  Ways to write a character between quotes. A backslash and
  a quote have to be escaped; a line feed and a tab can be.
-/
inductive SpellsCharacter : Char → List Char → Prop where
| plain
    {c : Char}
    (hPlain : c ≠ '"' ∧ c ≠ '\\') :
    SpellsCharacter c [c]
| quote : SpellsCharacter '"' ['\\', '"']
| backslash : SpellsCharacter '\\' ['\\', '\\']
| feed : SpellsCharacter '\n' ['\\', 'n']
| tab : SpellsCharacter '\t' ['\\', 't']

/- Ways to write a value, one character after another. -/
inductive Spells : List Char → List Char → Prop where
| nil : Spells [] []
| cons
    {c : Char}
    {value part text : List Char}
    (hPart : SpellsCharacter c part)
    (hText : Spells value text) :
    Spells (c :: value) (part ++ text)

/- A character is written as a piece that stands for it. -/
theorem SpellsCharacter.exists_piece
    {c : Char}
    {part : List Char}
    (hPart : SpellsCharacter c part) :
    ∃ piece : Piece,
      piece.text = part ∧ piece.meaning = [c] := by
  cases hPart with
  | plain hPlain => exact ⟨.plain c hPlain, rfl, rfl⟩
  | quote => exact ⟨.escape '"', rfl, rfl⟩
  | backslash => exact ⟨.escape '\\', rfl, rfl⟩
  | feed => exact ⟨.escape 'n', rfl, rfl⟩
  | tab => exact ⟨.escape 't', rfl, rfl⟩

/- A value is written as pieces that stand for it. -/
theorem Spells.exists_body
    {value text : List Char}
    (hSpells : Spells value text) :
    ∃ body : List Piece,
      Piece.textOfAll body = text ∧
        Piece.meaningOfAll body = value := by
  induction hSpells with
  | nil => exact ⟨[], rfl, rfl⟩
  | cons hPart hText ih =>
      rcases hPart.exists_piece with
        ⟨piece, rfl, hMeaning⟩
      rcases ih with ⟨body, rfl, rfl⟩
      refine ⟨piece :: body, rfl, ?_⟩
      unfold Piece.meaningOfAll
      rw [List.flatMap_cons, hMeaning, List.singleton_append]

/- A value that is written out is read back. -/
theorem readQuoted_of_spells
    {value text : List Char}
    (hSpells : Spells value text)
    (rest : List Char) :
    readQuoted (text ++ '"' :: rest) =
      some (value, rest) := by
  rcases hSpells.exists_body with ⟨body, rfl, rfl⟩
  exact readQuoted_textOfAll body rest

/-
  A quoted value is read exactly if some quote stands behind
  an even run of backslashes. The reading ends behind the
  first such quote, leaves what follows as it is, and gives
  what stands before the quote, decoded. So every value that
  is written out is read back, whatever follows.
-/
theorem readQuoted_up_to_closing_quote
    (s : List Char) :
    ((∃ found, readQuoted s = some found) ↔
      ∃ before rest, IsUnescaped s before rest) ∧
    (∀ value rest,
      readQuoted s = some (value, rest) ↔
        ∃ before,
          IsClosed s before rest ∧
            decode before = value) ∧
    ∀ value text rest,
      Spells value text →
        s = text ++ '"' :: rest →
          readQuoted s = some (value, rest) := by
  refine ⟨⟨?_, ?_⟩, fun value rest => ⟨?_, ?_⟩, ?_⟩
  · rintro ⟨⟨value, rest⟩, hRead⟩
    rcases exists_isClosed_of_readQuoted hRead with
      ⟨before, hClosed, _⟩
    exact ⟨before, rest, hClosed.unescaped⟩
  · rintro ⟨before, rest, rfl, hEven⟩
    rcases exists_body_of_unescaped rest hEven with
      ⟨body, rest', hText⟩
    rw [hText]
    exact ⟨_, readQuoted_textOfAll body rest'⟩
  · exact exists_isClosed_of_readQuoted
  · rintro ⟨before, hClosed, rfl⟩
    exact readQuoted_of_isClosed hClosed
  · rintro value text rest hSpells rfl
    exact readQuoted_of_spells hSpells rest

/- Escaped and plain characters next to a run, and a tail. -/
theorem readQuoted_up_to_closing_quote_of_runs :
    let value := ['\\', '"', '\n', '\t', '\\']
    let text := "\\\\\\\"\\n\t\\\\".toList
    let rest := "\\\" x".toList
    Spells value text ∧
      readQuoted (text ++ '"' :: rest) =
        some (value, rest) := by
  intro value text rest
  have hSpells : Spells value text :=
    .cons .backslash
      (.cons .quote
        (.cons .feed
          (.cons (.plain (by decide))
            (.cons .backslash .nil))))
  exact
    ⟨hSpells,
      (readQuoted_up_to_closing_quote _).2.2 value text rest
        hSpells rfl⟩

/- A backslash at the end closes nothing. -/
example : readQuoted "\\\\\\\"\\".toList = none := by
  decide

end Invocation

end CommandScript
