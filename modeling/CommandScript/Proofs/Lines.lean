import CommandScript.Language
import CommandScript.Proofs.Words

/-
  A text that is put together from lines, and the reading of
  lines one after another. Reading looks at the trimmed text
  of each line only, so blanks around the lines do not
  matter.

  Key definitions include:
    * `Text.Pads`
    * `Text.Joins`
    * `Text.segments`
    * `Text.IsEnded`
    * `Language.readLines`

  Main statements:
    * `Text.lines_joined_append`
    * `Text.map_trim_lines`
    * `Text.lines_append`
    * `Language.readLines_congr`
    * `Language.parse_eq_readLines`
    * `Language.parse_eq_segments`
-/

namespace CommandScript

namespace Text

------------------------------------------------------------
-- Line Ends
------------------------------------------------------------

/- A line without the carriage return it may end with. -/
def chomp : List Char → List Char
| [] => []
| ['\r'] => []
| c :: rest => c :: chomp rest

/- A carriage return at the end is a blank like others. -/
theorem exists_chomp
    (raw : List Char) :
    ∃ right, Blanks right ∧ raw = chomp raw ++ right := by
  fun_induction chomp raw with
  | case1 => exact ⟨[], by decide, rfl⟩
  | case2 => exact ⟨['\r'], by decide, rfl⟩
  | case3 c rest hLast ih =>
      rcases ih with ⟨right, hRight, hRest⟩
      exact ⟨right, hRight, congrArg (c :: ·) hRest⟩

/- What is taken from the end of a line does not matter. -/
theorem trim_chomp
    (raw : List Char) :
    trim (chomp raw) = trim raw := by
  rcases exists_chomp raw with ⟨right, hRight, hRaw⟩
  have hTrim :
      trim ([] ++ chomp raw ++ right) = trim (chomp raw) :=
    trim_padded (List.forall_mem_nil _) hRight
  rw [List.nil_append, ← hRaw] at hTrim
  exact hTrim.symm

section Ends

variable {raw : List Char}

/- Up to the first line feed there is one line. -/
theorem lines_append_feed
    (hFree : '\n' ∉ raw)
    (rest : List Char) :
    lines (raw ++ '\n' :: rest) =
      chomp raw :: lines rest := by
  fun_induction chomp raw with
  | case1 => simp [lines]
  | case2 => simp [lines]
  | case3 c tail hLast ih =>
      rw [List.mem_cons, not_or] at hFree
      rcases hFree with ⟨hc, hTail⟩
      have hRest := ih hTail
      rw [List.cons_append, lines]
      · rw [hRest]
        rfl
      · intro next hReturn hNext
        cases tail with
        | nil => exact hLast hReturn rfl
        | cons head tail =>
            cases hNext
            exact hTail List.mem_cons_self
      · exact fun hFeed => hc hFeed.symm

/- What is not ended by a line feed is one line. -/
theorem lines_of_free
    (hFree : '\n' ∉ raw)
    (hSome : raw ≠ []) :
    lines raw = [raw] := by
  induction raw with
  | nil => exact absurd rfl hSome
  | cons c tail ih =>
      rw [List.mem_cons, not_or] at hFree
      rcases hFree with ⟨hc, hTail⟩
      rw [lines]
      · cases tail with
        | nil => rfl
        | cons head tail =>
            rw [ih hTail (List.cons_ne_nil head tail)]
            rfl
      · intro next hReturn hNext
        rw [hNext] at hTail
        exact hTail List.mem_cons_self
      · exact fun hFeed => hc hFeed.symm

end Ends

------------------------------------------------------------
-- Joined Lines
------------------------------------------------------------

/- Lines one after another, each ended by a line feed. -/
def joined (raws : List (List Char)) : List Char :=
  raws.flatMap fun raw => raw ++ ['\n']

/-
  A text consists of lines. The line feed that ends the last
  of them may be missing.
-/
def Joins
    (raws : List (List Char))
    (text : List Char) : Prop :=
  text = joined raws ∨ text ++ ['\n'] = joined raws

/- A text with blanks around it, all on one line. -/
def Pads (text raw : List Char) : Prop :=
  ∃ left right,
    Blanks left ∧ Blanks right ∧
      '\n' ∉ left ++ right ∧
        raw = left ++ text ++ right

section Joined

variable {text raw : List Char}
variable {raws : List (List Char)}

/- The blanks around a trimmed text are trimmed away. -/
theorem Pads.trim_eq
    (hPads : Pads text raw)
    (hTrimmed : trim text = text) :
    trim raw = text := by
  rcases hPads with ⟨left, right, hLeft, hRight, _, rfl⟩
  exact trim_of_padded hLeft hRight hTrimmed

/- Blanks on the same line bring in no line feed. -/
theorem Pads.free
    (hPads : Pads text raw)
    (hFree : '\n' ∉ text) :
    '\n' ∉ raw := by
  rcases hPads with ⟨left, right, _, _, hBlanks, rfl⟩
  simp only [List.mem_append, not_or] at hBlanks ⊢
  exact ⟨⟨hBlanks.1, hFree⟩, hBlanks.2⟩

/- Lines that end in a line feed are found one by one. -/
theorem lines_joined_append
    (hFree : ∀ raw ∈ raws, '\n' ∉ raw)
    (rest : List Char) :
    lines (joined raws ++ rest) =
      raws.map chomp ++ lines rest := by
  induction raws with
  | nil => rfl
  | cons raw raws ih =>
      rcases List.forall_mem_cons.mp hFree with
        ⟨hRaw, hRaws⟩
      have hText :
          joined (raw :: raws) ++ rest =
            raw ++ '\n' :: (joined raws ++ rest) := by
        simp [joined]
      rw [hText, lines_append_feed hRaw, ih hRaws]
      rfl

/- The lines of a text are the ones it consists of. -/
theorem map_trim_lines
    (hFree : ∀ raw ∈ raws, '\n' ∉ raw)
    (hSome : ∀ raw ∈ raws, raw ≠ [])
    (hJoins : Joins raws text) :
    (lines text).map trim = raws.map trim := by
  have hChomp (raws : List (List Char)) :
      (raws.map chomp).map trim = raws.map trim := by
    simp [trim_chomp]
  rcases hJoins with rfl | hText
  · have hLines := lines_joined_append hFree []
    rw [List.append_nil] at hLines
    rw [hLines, lines, List.append_nil, hChomp]
  · rcases List.eq_nil_or_concat raws with
      rfl | ⟨early, last, rfl⟩
    · exact absurd hText (by simp [joined])
    · rw [List.concat_eq_append] at *
      rw [List.forall_mem_append] at hFree hSome
      have hLast := hFree.2 last List.mem_cons_self
      have hLastSome := hSome.2 last List.mem_cons_self
      have hSplit : text = joined early ++ last := by
        have hFeed :
            text ++ ['\n'] =
              joined early ++ last ++ ['\n'] := by
          rw [hText]
          simp [joined]
        exact List.append_cancel_right hFeed
      rw [hSplit, lines_joined_append hFree.1,
        lines_of_free hLast hLastSome, List.map_append,
        hChomp, List.map_append]

end Joined

------------------------------------------------------------
-- Segments
------------------------------------------------------------

/-
  What a text holds before, between and after its line
  feeds. A carriage return in front of a line feed belongs
  to the segment that the line feed ends.
-/
def segments (s : List Char) : List (List Char) :=
  s.splitOn '\n'

/- A text is one segment, or one and a shorter text. -/
@[elab_as_elim]
theorem segment_induction
    {motive : List Char → Prop}
    (last : ∀ raw, '\n' ∉ raw → motive raw)
    (line :
      ∀ raw rest, '\n' ∉ raw → motive rest →
        motive (raw ++ '\n' :: rest))
    (s : List Char) :
    motive s := by
  -- The first segment is gathered until it is ended.
  have hGather :
      ∀ raw, '\n' ∉ raw → motive (raw ++ s) := by
    induction s with
    | nil =>
        intro raw hFree
        rw [List.append_nil]
        exact last raw hFree
    | cons c s ih =>
        intro raw hFree
        by_cases hFeed : c = '\n'
        · rw [hFeed]
          exact line raw s hFree (ih [] List.not_mem_nil)
        · have hLonger : '\n' ∉ raw ++ [c] := by
            simp [hFree, Ne.symm hFeed]
          have hRest := ih (raw ++ [c]) hLonger
          rw [List.append_assoc] at hRest
          exact hRest
  exact hGather [] List.not_mem_nil

section Segments

variable {raw : List Char}

theorem segments_of_free
    (hFree : '\n' ∉ raw) :
    segments raw = [raw] :=
  List.splitOn_eq_singleton hFree

theorem segments_append_feed
    (hFree : '\n' ∉ raw)
    (rest : List Char) :
    segments (raw ++ '\n' :: rest) =
      raw :: segments rest :=
  List.splitOn_append_cons_self_of_not_mem hFree rest

/- Lines that are joined are the segments of their text. -/
theorem segments_joined
    {raws : List (List Char)}
    (hFree : ∀ raw ∈ raws, '\n' ∉ raw) :
    segments (joined raws) = raws ++ [[]] := by
  induction raws with
  | nil => exact segments_of_free List.not_mem_nil
  | cons raw raws ih =>
      rcases List.forall_mem_cons.mp hFree with
        ⟨hRaw, hRaws⟩
      have hText :
          joined (raw :: raws) =
            raw ++ '\n' :: joined raws := by
        simp [joined]
      rw [hText, segments_append_feed hRaw, ih hRaws]
      rfl

/- No line feed is part of a segment. -/
theorem free_of_mem_segments
    {s : List Char}
    (hSegment : raw ∈ segments s) :
    '\n' ∉ raw := by
  induction s using segment_induction with
  | last only hFree =>
      rw [segments_of_free hFree] at hSegment
      rw [List.mem_singleton.mp hSegment]
      exact hFree
  | line first rest hFree ih =>
      rw [segments_append_feed hFree] at hSegment
      rcases List.mem_cons.mp hSegment with
        rfl | hSegment
      · exact hFree
      · exact ih hSegment

end Segments

/-
  What follows a line feed has its lines after those of the
  text that the line feed ends.
-/
theorem lines_append_of_feed
    (body rest : List Char) :
    lines (body ++ '\n' :: rest) =
      lines (body ++ ['\n']) ++ lines rest := by
  induction body using segment_induction with
  | last raw hFree =>
      rw [lines_append_feed hFree, lines_append_feed hFree]
      rfl
  | line raw tail hFree ih =>
      rw [List.append_assoc, List.append_assoc,
        List.cons_append, List.cons_append,
        lines_append_feed hFree, lines_append_feed hFree,
        ih, List.cons_append]

/- A text that is empty or that a line feed ends. -/
def IsEnded (s : List Char) : Prop :=
  s = [] ∨ ∃ body, s = body ++ ['\n']

/- What follows an ended text has its lines after it. -/
theorem lines_append
    {s : List Char}
    (hEnded : IsEnded s)
    (rest : List Char) :
    lines (s ++ rest) = lines s ++ lines rest := by
  rcases hEnded with rfl | ⟨body, rfl⟩
  · rfl
  · rw [List.append_assoc]
    exact lines_append_of_feed body rest

end Text

------------------------------------------------------------
-- Reading Lines
------------------------------------------------------------

/- The role of a line depends on its trimmed text only. -/
theorem Dialect.role_congr
    (d : Dialect)
    {raw raw' : List Char}
    (hTrim : Text.trim raw = Text.trim raw') :
    d.role raw = d.role raw' := by
  unfold role
  rw [hTrim]

namespace Language

variable {κ : Type}
variable (l : Language κ)

/- A command line adds its leaf. -/
theorem step_of_command
    {raw text : List Char}
    {invocation : Invocation}
    {command : κ}
    (draft : Draft κ)
    (number : Nat)
    (hRole : l.dialect.role raw = .command text)
    (hRead : Invocation.read text = .ok invocation)
    (hCommand :
      l.registry.construct invocation.kind
          invocation.params =
        some (.ok command)) :
    l.step draft (number, raw) =
      .ok
        (draft.add
          (.leaf ⟨invocation.kind, number⟩ command)) := by
  unfold step Language.command construct
  simp only [hRole, hRead, Attempt.ofExcept, Attempt.wrap,
    bind, Except.bind, hCommand]
  rfl

/- Read lines on top of a draft, counted from a number. -/
def readLines
    (draft : Draft κ)
    (number : Nat) :
    List (List Char) → Attempt ParseError (Draft κ)
| [] => .ok draft
| raw :: rest => do
    let next ← l.step draft (number, raw)
    readLines next (number + 1) rest

/- Lines with the same trimmed texts read the same. -/
theorem readLines_congr
    {raws raws' : List (List Char)}
    (draft : Draft κ)
    (number : Nat)
    (hTrim : raws.map Text.trim = raws'.map Text.trim) :
    l.readLines draft number raws =
      l.readLines draft number raws' := by
  induction raws generalizing draft number raws' with
  | nil =>
      rw [List.map_nil, eq_comm, List.map_eq_nil_iff]
        at hTrim
      rw [hTrim]
  | cons raw raws ih =>
      cases raws' with
      | nil => cases hTrim
      | cons raw' raws' =>
          rw [List.map_cons, List.map_cons,
            List.cons.injEq] at hTrim
          rcases hTrim with ⟨hRaw, hRaws⟩
          have hStep :
              l.step draft (number, raw) =
                l.step draft (number, raw') := by
            unfold step
            rw [l.dialect.role_congr hRaw]
          unfold readLines
          rw [hStep]
          cases l.step draft (number, raw') with
          | error halt => rfl
          | ok next => exact ih next (number + 1) hRaws

/- Later lines are read on top of what is read before. -/
theorem readLines_append
    (draft : Draft κ)
    (number : Nat)
    (early late : List (List Char)) :
    l.readLines draft number (early ++ late) =
      (l.readLines draft number early).bind fun next =>
        l.readLines next (number + early.length) late := by
  induction early generalizing draft number with
  | nil => rfl
  | cons raw early ih =>
      rw [List.cons_append, readLines, readLines]
      cases l.step draft (number, raw) with
      | error halt => rfl
      | ok next =>
          have hNext := ih next (number + 1)
          rw [Nat.add_assoc, Nat.add_comm 1] at hNext
          exact hNext

/-
  Segments are read as the lines are. The blanks around them
  do not matter, and a last one that is empty is skipped.
-/
theorem readLines_segments
    (draft : Draft κ)
    (number : Nat)
    (s : List Char) :
    l.readLines draft number (Text.lines s) =
      l.readLines draft number (Text.segments s) := by
  induction s using Text.segment_induction
      generalizing draft number with
  | last raw hFree =>
      rw [Text.segments_of_free hFree]
      cases raw with
      | nil => rfl
      | cons c tail =>
          rw [Text.lines_of_free hFree
            (List.cons_ne_nil c tail)]
  | line raw rest hFree ih =>
      rw [Text.lines_append_feed hFree,
        Text.segments_append_feed hFree]
      unfold readLines
      unfold step
      rw [l.dialect.role_congr (Text.trim_chomp raw)]
      congr 1
      funext next
      exact ih next (number + 1)

/- Numbered lines are read as lines that are counted. -/
theorem foldlM_step_eq_readLines
    (draft : Draft κ)
    (number : Nat)
    (raws : List (List Char)) :
    ((raws.zipIdx number).map fun entry =>
        (entry.2 + 1, entry.1)).foldlM l.step draft =
      l.readLines draft (number + 1) raws := by
  induction raws generalizing draft number with
  | nil => rfl
  | cons raw raws ih =>
      rw [List.zipIdx_cons, List.map_cons,
        List.foldlM_cons, readLines]
      cases l.step draft (number + 1, raw) with
      | error halt => rfl
      | ok next => exact ih next (number + 1)

/- A text is read line by line and then finished. -/
theorem parse_eq_readLines
    (text : String) :
    l.parse text =
      (l.readLines Draft.empty 1
          (Text.lines text.toList)).bind
        Draft.finish := by
  unfold parse Text.numberedLines
  rw [l.foldlM_step_eq_readLines]
  rfl

/- A text is read segment by segment and then finished. -/
theorem parse_eq_segments
    (text : String) :
    l.parse text =
      (l.readLines Draft.empty 1
          (Text.segments text.toList)).bind
        Draft.finish := by
  rw [l.parse_eq_readLines, l.readLines_segments]

end Language

end CommandScript
