import CommandScript.Builtin
import CommandScript.Proofs.Commands
import CommandScript.Proofs.Lines

/-
  Scripts without their groups. When the markers of a script
  are taken out of it, the lines they were on staying empty,
  its commands are left as a flat list. It runs as the
  script does, whatever befalls the run.

  Key definitions include:
    * `Dialect.ungrouped`
    * `Group.flat`
    * `Draft.flat`

  Main statements:
    * `Language.step_unmarked`
    * `Language.readLines_unmarked`
    * `Language.parse_ungrouped`
    * `Language.run_ungrouped`
-/

namespace CommandScript

------------------------------------------------------------
-- Texts without Markers
------------------------------------------------------------

namespace Dialect

variable (d : Dialect)

/- A line that is empty in place of a marker. -/
def unmarked (raw : List Char) : List Char :=
  match d.role raw with
  | .opening | .closing => []
  | .skipped | .command _ => raw

/- A text with an empty line in place of every marker. -/
def ungrouped (text : String) : String :=
  let raws := Text.segments text.toList
  String.ofList (['\n'].intercalate (raws.map d.unmarked))

/- What is left of a line is on one line. -/
theorem free_unmarked
    {raw : List Char}
    (hFree : '\n' ∉ raw) :
    '\n' ∉ d.unmarked raw := by
  unfold unmarked
  cases d.role raw with
  | opening | closing => exact List.not_mem_nil
  | skipped | command line => exact hFree

/- The other lines stay where they are. -/
theorem segments_ungrouped
    (text : String) :
    Text.segments (d.ungrouped text).toList =
      (Text.segments text.toList).map d.unmarked := by
  unfold ungrouped
  rw [String.toList_ofList]
  apply List.splitOn_intercalate
  · intro raw hRaw
    rcases List.mem_map.mp hRaw with
      ⟨segment, hSegment, rfl⟩
    exact
      d.free_unmarked (Text.free_of_mem_segments hSegment)
  · rw [ne_eq, List.map_eq_nil_iff]
    exact List.splitOn_ne_nil '\n' text.toList

end Dialect

------------------------------------------------------------
-- Trees without Groups
------------------------------------------------------------

/- Commands side by side are their own jobs. -/
theorem Node.jobsOfAll_map_node
    {κ : Type}
    (commands : List (Placed κ)) :
    jobsOfAll (commands.map Placed.node) =
      commands.map Placed.job := by
  induction commands with
  | nil => rfl
  | cons placed commands ih =>
      rw [List.map_cons, jobsOfAll, ih]
      rfl

namespace Group

variable {κ : Type}

/-
  The commands of a group, in their order and on the lines
  they are on, without the groups in it.
-/
def flat (g : Group κ) : Group κ where
  state := .idle
  children := g.commands.map Placed.node

/- A fresh group runs as its commands do without groups. -/
theorem run_flat
    {σ : Type}
    (g : Group κ)
    (routine : κ → Routine σ)
    (plan : Plan)
    (w : World σ)
    (hFresh : g.IsFresh) :
    (g.run routine plan w).outcome =
      (g.flat.run routine plan w).outcome := by
  have hJobs : g.flat.jobs = g.commands.map Placed.job :=
    Node.jobsOfAll_map_node g.commands
  rw [run_outcome_of_commands routine plan w hFresh,
    run_outcome routine plan w rfl, hJobs]

end Group

namespace Draft

variable {κ : Type}

/- The commands of a draft without its groups. -/
def flat (d : Draft κ) : Draft κ where
  root := d.commands.map Placed.node
  frames := []

/- A command comes last, however deep it is nested. -/
theorem flat_add_leaf
    (d : Draft κ)
    (location : Location)
    (command : κ) :
    (d.add (.leaf location command)).flat =
      d.flat.add (.leaf location command) := by
  unfold flat
  rw [commands_add_leaf, List.map_append]
  rfl

/- Without groups only the commands make a difference. -/
theorem flat_of_commands_eq
    {d d' : Draft κ}
    (hCommands : d'.commands = d.commands) :
    d'.flat = d.flat := by
  unfold flat
  rw [hCommands]

/- A draft without groups is always finished. -/
theorem finish_flat
    {d : Draft κ}
    {g : Group κ}
    (hFinish : d.finish = .ok g) :
    d.flat.finish = .ok g.flat := by
  unfold Group.flat
  rw [commands_of_finish hFinish]
  rfl

end Draft

------------------------------------------------------------
-- Reading without Markers
------------------------------------------------------------

namespace Language

variable {κ : Type}
variable {l : Language κ}

/- An accepted line adds the same command without groups. -/
theorem step_unmarked
    {draft draft' : Draft κ}
    {number : Nat}
    {raw : List Char}
    (hStep : l.step draft (number, raw) = .ok draft') :
    l.step draft.flat (number, l.dialect.unmarked raw) =
      .ok draft'.flat := by
  have hEmpty (d : Draft κ) :
      l.step d (number, []) = .ok d :=
    rfl
  unfold Dialect.unmarked
  cases l.advances_of_step hStep with
  | skipped hRole =>
      rw [hRole]
      simp only [step, hRole]
  | opened hRole =>
      have hFlat :=
        Draft.flat_of_commands_eq
          (draft.commands_openGroup number)
      rw [hRole, hFlat]
      exact hEmpty draft.flat
  | closed hRole hClose =>
      have hFlat :=
        Draft.flat_of_commands_eq
          (Draft.commands_closeGroup? hClose)
      rw [hRole, hFlat]
      exact hEmpty draft.flat
  | called hRole hCalls =>
      rw [hRole, Draft.flat_add_leaf]
      exact
        l.step_of_command draft.flat number hRole hCalls.1
          hCalls.2

/- Accepted lines are accepted without their markers. -/
theorem readLines_unmarked
    {draft draft' : Draft κ}
    {number : Nat}
    {raws : List (List Char)}
    (hRead : l.readLines draft number raws = .ok draft') :
    l.readLines draft.flat number
        (raws.map l.dialect.unmarked) =
      .ok draft'.flat := by
  induction raws generalizing draft number with
  | nil =>
      cases hRead
      rfl
  | cons raw raws ih =>
      rw [readLines] at hRead
      rcases Attempt.exists_of_bind_eq_ok hRead with
        ⟨next, hStep, hRest⟩
      rw [List.map_cons, readLines, step_unmarked hStep]
      exact ih hRest

/- Without its markers a script is a list of commands. -/
theorem parse_ungrouped
    {text : String}
    {g : Group κ}
    (hParse : l.parse text = .ok g) :
    l.parse (l.dialect.ungrouped text) = .ok g.flat := by
  rw [l.parse_eq_segments] at hParse ⊢
  rcases Attempt.exists_of_bind_eq_ok hParse with
    ⟨draft, hRead, hFinish⟩
  have hFlat := readLines_unmarked hRead
  change l.readLines Draft.empty 1 _ = _ at hFlat
  rw [l.dialect.segments_ungrouped, hFlat]
  exact Draft.finish_flat hFinish

/-
  Groups do not change what a script does. If every marker
  of a script is taken out, the line it was on staying
  empty, the same commands on the same lines are left in
  their order, as a flat list. Over any sink and from any
  world, whenever the run is cancelled or dropped, this list
  runs as the script does: it ends in the same way at the
  same time, and the sink has been called in the same way.
-/
theorem run_ungrouped
    (dialect : Dialect)
    (text : String)
    (g : Group Builtin)
    (hParse :
      (⟨Builtin.registry, dialect⟩ : Language Builtin).parse
          text =
        .ok g) :
    (⟨Builtin.registry, dialect⟩ : Language Builtin).parse
        (dialect.ungrouped text) =
      .ok g.flat ∧
      ∀ (σ : Type) [Sink σ] (plan : Plan) (w : World σ),
        let p := g.run Builtin.routine plan w
        let q := g.flat.run Builtin.routine plan w
        p.ending = q.ending ∧ p.world = q.world := by
  refine ⟨parse_ungrouped hParse, ?_⟩
  intro σ hSink plan w p q
  have hFresh := (shows_of_parse hParse).1
  have hOutcome : p.outcome = q.outcome :=
    g.run_flat Builtin.routine plan w hFresh
  exact Outcome.mk.inj hOutcome

/- A script with an empty group and a group around it. -/
theorem run_ungrouped_of_nested_groups :
    let l : Language Builtin :=
      ⟨Builtin.registry, .standard⟩
    let text :=
      "print message=a\n\x7b\n \x7b\r\n\x7d\n" ++
        "delay duration=2s\nfail\n\x7d"
    let bare :=
      "print message=a\n\n\n\ndelay duration=2s\nfail\n"
    let two : Duration := ⟨2000000000, by decide⟩
    let flat : Group Builtin :=
      ⟨.idle,
        [ .leaf ⟨"print", 1⟩ (.print "a"),
          .leaf ⟨"delay", 5⟩ (.delay two),
          .leaf ⟨"fail", 6⟩ (.fail none) ]⟩
    ∃ g : Group Builtin,
      l.parse text = .ok g ∧
        g.depth = 2 ∧
        l.parse bare = .ok flat ∧
        ∀ (plan : Plan) (w : World Recorder),
          let p := g.run Builtin.routine plan w
          let q := flat.run Builtin.routine plan w
          p.ending = q.ending ∧ p.world = q.world := by
  intro l text bare two flat
  let g : Group Builtin :=
    ⟨.idle,
      [ .leaf ⟨"print", 1⟩ (.print "a"),
        .group 2 .idle
          [ .group 3 .idle [],
            .leaf ⟨"delay", 5⟩ (.delay two),
            .leaf ⟨"fail", 6⟩ (.fail none) ] ]⟩
  have hParse : l.parse text = .ok g := by
    simp only [l, text, g, two]
    with_unfolding_all rfl
  have hBare : l.dialect.ungrouped text = bare := by
    decide
  rcases run_ungrouped .standard text g hParse with
    ⟨hFlat, hRuns⟩
  rw [hBare] at hFlat
  exact ⟨g, hParse, rfl, hFlat, hRuns Recorder⟩

end Language

end CommandScript
