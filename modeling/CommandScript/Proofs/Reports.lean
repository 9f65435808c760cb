import CommandScript.CommandLine
import CommandScript.Files.Tree
import CommandScript.Proofs.Builtins
import CommandScript.Proofs.Commands

/-
  What the program reports about a script that it can read.
  It rejects the same texts whether it checks or runs them.
  A run prints what the `print` commands before the first
  `fail` print, and it reports that `fail`; if its output is
  discarded it reports the same.

  Key definitions include:
    * `Sink.Shows`
    * `Placed.printed`
    * `Placed.ending`
    * `Report.Rejects`
    * `Report.Recounts`

  Main statements:
    * `Builtin.run_of_shows`
    * `Placed.runAll_of_shows`
    * `Script.run_of_parse`
    * `CommandLine.performedIn_script`
-/

namespace CommandScript

------------------------------------------------------------
-- Sinks That Take Everything
------------------------------------------------------------

/-
  A sink that refuses nothing. What is seen of it grows by
  what it makes of each line, and clearing has no effect.
-/
structure Sink.Shows
    {σ : Type} [Sink σ]
    (seen : σ → String)
    (echo : String → String) : Prop where
  writeLine :
    ∀ moment line state,
      ∃ state',
        Sink.writeLine moment line state = .ok state' ∧
          seen state' = seen state ++ echo line
  clear :
    ∀ state,
      ∃ state',
        Sink.clear state = .ok state' ∧
          seen state' = seen state

/- Output shows every line and a line feed after it. -/
theorem Console.shows :
    Sink.Shows Console.text fun line => line ++ "\n" where
  writeLine moment line c := by
    refine ⟨_, rfl, ?_⟩
    simp [Console.text, String.join_append,
      String.join_cons, String.join_nil]
  clear c := ⟨c, rfl, rfl⟩

/- Nothing is seen of lines that are discarded. -/
theorem Discard.shows :
    Sink.Shows (fun _ : Discard => "") fun _ => "" where
  writeLine _ _ _ := ⟨.discard, rfl, rfl⟩
  clear _ := ⟨.discard, rfl, rfl⟩

------------------------------------------------------------
-- Commands as They Are Seen
------------------------------------------------------------

/- The line that a command prints. -/
def Builtin.printed? : Builtin → Option String
| .print message => some message
| _ => none

namespace Placed

/- The lines printed by what comes before a failure. -/
def printed
    (commands : List (Placed Builtin)) : List String :=
  (commands.takeWhile fun placed =>
      !placed.command.fails).filterMap fun placed =>
    placed.command.printed?

/- How commands end one after another, left alone. -/
def ending : List (Placed Builtin) → Ending
| [] => .finished .succeeded
| ⟨location, .fail message⟩ :: _ =>
    .finished
      (.failed
        (.raisedAt location
          (.failed (message.getD Builtin.defaultFailure))))
| _ :: rest => ending rest

section Endings

variable {placed : Placed Builtin}
variable {rest : List (Placed Builtin)}

/- What a command prints comes before later lines. -/
theorem printed_cons
    (hSucceeds : placed.command.fails = false) :
    printed (placed :: rest) =
      placed.command.printed?.toList ++ printed rest := by
  unfold printed
  rw [List.takeWhile_cons_of_pos (by rw [hSucceeds]; rfl)]
  cases hPrinted : placed.command.printed? <;>
    simp [hPrinted]

/- What does not fail leaves the ending to the others. -/
theorem ending_cons
    (hSucceeds : placed.command.fails = false) :
    ending (placed :: rest) = ending rest := by
  rcases placed with ⟨location, command⟩
  cases command with
  | fail message => cases hSucceeds
  | print message | delay duration | clear => rfl

/- Commands succeed when none of them fails. -/
theorem ending_eq_succeeded_iff
    {commands : List (Placed Builtin)} :
    ending commands = .finished .succeeded ↔
      ∀ placed ∈ commands,
        placed.command.fails = false := by
  induction commands with
  | nil => simp [ending]
  | cons placed rest ih =>
      rw [List.forall_mem_cons]
      cases hFails : placed.command.fails with
      | false => simp [ending_cons hFails, ih]
      | true =>
          rcases placed with ⟨location, command⟩
          cases command with
          | fail message => simp [ending]
          | print message | delay duration | clear =>
              cases hFails

/- The first command that fails decides the ending. -/
theorem ending_of_fail
    {early : List (Placed Builtin)}
    {message : Option String}
    (late : List (Placed Builtin))
    (hEarly :
      ∀ other ∈ early, other.command.fails = false)
    (hCommand : placed.command = .fail message) :
    ending (early ++ placed :: late) =
      .finished
        (.failed
          (.raisedAt placed.location
            (.failed
              (message.getD Builtin.defaultFailure)))) := by
  induction early with
  | nil =>
      rcases placed with ⟨location, command⟩
      cases hCommand
      rfl
  | cons other early ih =>
      rcases List.forall_mem_cons.mp hEarly with
        ⟨hOther, hEarly⟩
      rw [List.cons_append, ending_cons hOther]
      exact ih hEarly

end Endings

end Placed

section Runs

variable {σ : Type} [Sink σ]
variable {seen : σ → String}
variable {echo : String → String}

/- A command that succeeds is seen by what it prints. -/
theorem Builtin.run_of_shows
    {command : Builtin}
    {w : World σ}
    (path : List Location)
    (hShows : Sink.Shows seen echo)
    (hLive : w.cancelled = false)
    (hSucceeds : command.fails = false) :
    ∃ w' : World σ,
      ((routine command).run .undisturbed path w).outcome =
          ⟨.finished .succeeded, w'⟩ ∧
        w'.cancelled = false ∧
        seen w'.state =
          seen w.state ++
            String.join
              (command.printed?.toList.map echo) := by
  cases command with
  | fail message => cases hSucceeds
  | print message =>
      rcases hShows.writeLine w.clock message w.state with
        ⟨state, hWrite, hSeen⟩
      refine ⟨w.alter fun _ => state, ?_, hLive, ?_⟩
      · simp [routine, Routine.unlessCancelled, Routine.run,
          hLive, hWrite, ofSink, Routine.succeed,
          Trail.outcome]
      · simp [World.alter, hSeen, printed?,
          String.join_cons, String.join_nil]
  | clear =>
      rcases hShows.clear w.state with
        ⟨state, hClear, hSeen⟩
      refine ⟨w.alter fun _ => state, ?_, hLive, ?_⟩
      · simp [routine, Routine.unlessCancelled, Routine.run,
          hLive, hClear, ofSink, Routine.succeed,
          Trail.outcome]
      · simp [World.alter, hSeen, printed?,
          String.join_nil]
  | delay duration =>
      have hSleep :=
        World.sleep_of_spared hLive
          (Plan.undisturbed_spares
            (w.clock + duration.nanoseconds))
      refine
        ⟨{ w with clock := w.clock + duration.nanoseconds },
          ?_, hLive, ?_⟩
      · simp [routine, Routine.unlessCancelled, Routine.run,
          hLive, hSleep, Routine.succeed, Trail.outcome]
      · simp [printed?, String.join_nil]

/-
  Commands end as the first of them that fails does, and the
  lines before it are seen.
-/
theorem Placed.runAll_of_shows
    {w : World σ}
    (commands : List (Placed Builtin))
    (hShows : Sink.Shows seen echo)
    (hLive : w.cancelled = false) :
    ∃ w' : World σ,
      Job.runAll Builtin.routine .undisturbed
          (commands.map job) w =
          ⟨ending commands, w'⟩ ∧
        seen w'.state =
          seen w.state ++
            String.join ((printed commands).map echo) := by
  induction commands generalizing w with
  | nil => exact ⟨w, rfl, by simp [printed]⟩
  | cons placed rest ih =>
      cases hFails : placed.command.fails with
      | false =>
          rcases Builtin.run_of_shows [] hShows hLive
              hFails with
            ⟨next, hRun, hLive, hSeen⟩
          rcases ih hLive with ⟨last, hRest, hLast⟩
          have hJob :
              placed.job.run Builtin.routine .undisturbed
                  w =
                ⟨.finished .succeeded, next⟩ :=
            hRun
          refine ⟨last, ?_, ?_⟩
          · rw [List.map_cons,
              Job.runAll_cons_of_succeeds hJob, hRest,
              ending_cons hFails]
          · rw [hLast, hSeen, printed_cons hFails,
              List.map_append, String.join_append,
              String.append_assoc]
      | true =>
          rcases placed with ⟨location, command⟩
          cases command with
          | fail message =>
              refine ⟨w, ?_, ?_⟩
              · apply Job.runAll_cons_of_stops
                intro hEnds
                cases hEnds
              · simp [printed, Builtin.fails]
          | print message | delay duration | clear =>
              cases hFails

end Runs

------------------------------------------------------------
-- Reports on a Script
------------------------------------------------------------

/- Commands of a text have the kinds that call for them. -/
theorem Builtin.kind_of_mem_commands
    {dialect : Dialect}
    {text : String}
    {placed : Placed Builtin}
    (hPlaced :
      placed ∈ (Script.language dialect).commands text) :
    placed.location.kind = placed.command.kind := by
  rcases List.mem_filterMap.mp hPlaced with
    ⟨line, _, hLine⟩
  rcases Language.calls_of_placed? hLine with
    ⟨text, invocation, _, hCalls, hLocation⟩
  rw [hLocation, kind_of_construct hCalls.2]

namespace Report

/- A report that a script cannot be parsed. -/
def Rejects
    (r : Report)
    (s : Script)
    (cause : ParseError) : Prop :=
  r.exit = .failure ∧
    r.output.text = "" ∧
      r.errors =
        (Diagnostic.parseFailed s.name
          Builtin.registry.kinds cause).render

/-
  A report on the commands of a script that has run. They
  succeed if none of them is a `fail`. The lines that are
  printed before the first `fail` are all that is printed,
  and this `fail` is reported with its line and message.
-/
structure Recounts
    (r : Report)
    (s : Script)
    (commands : List (Placed Builtin)) : Prop where
  exit :
    r.exit = .success ↔
      ∀ placed ∈ commands, placed.command.fails = false
  output :
    r.output.text =
      String.join
        ((Placed.printed commands).map fun line =>
          line ++ "\n")
  calm : r.exit = .success → r.errors = ""
  errors :
    ∀ early placed late message,
      commands = early ++ placed :: late →
        (∀ other ∈ early, other.command.fails = false) →
          placed.command = .fail message →
            r.exit = .failure ∧
              r.errors =
                Diagnostic.render
                  ⟨s.name ++ ":" ++
                      toString placed.location.line ++
                      ": fail failed: " ++
                      message.getD Builtin.defaultFailure,
                    [ "Commands after the failing one " ++
                        "were not run" ],
                    []⟩

end Report

namespace Script

variable {s : Script}
variable {dialect : Dialect}

/- How a program exits and what it reports after a run. -/
def verdict (s : Script) : Ending → Exit × String
| .finished .succeeded => (.success, "")
| .finished (.failed cause) =>
    (.failure, (Diagnostic.runFailed s.name cause).render)
| .dropped => (.aborted, "")

/- A program exits well after a success only. -/
theorem verdict_success_iff
    (s : Script)
    (ending : Ending) :
    (s.verdict ending).1 = .success ↔
      ending = .finished .succeeded := by
  cases ending with
  | dropped => simp [verdict]
  | finished result => cases result <;> simp [verdict]

/- The error of a `fail` is reported by line and message. -/
theorem verdict_of_fail
    {location : Location}
    (s : Script)
    (message : String)
    (hKind : location.kind = "fail") :
    s.verdict
        (.finished
          (.failed
            (.raisedAt location (.failed message)))) =
      (.failure,
        Diagnostic.render
          ⟨s.name ++ ":" ++ toString location.line ++
              ": fail failed: " ++ message,
            [ "Commands after the failing one " ++
                "were not run" ],
            []⟩) := by
  have hWords (front : String) :
      front ++ ": " ++ "fail" ++ " failed: " =
        front ++ ": fail failed: " := by
    rw [String.append_assoc, String.append_assoc]
    rfl
  have hHeadline :
      Diagnostic.runHeadline s.name
          (.raisedAt location (.failed message)) =
        s.name ++ ":" ++ toString location.line ++
          ": fail failed: " ++ message := by
    simp only [Diagnostic.runHeadline,
      CommandError.location, hKind, hWords]
    rfl
  simp [verdict, Diagnostic.runFailed, hHeadline,
    CommandError.rootCause]

theorem ran_verdict
    {σ : Type}
    (s : Script)
    (output : σ → Console)
    (p : Passage (Group Builtin) σ) :
    ((s.ran output p).exit, (s.ran output p).errors) =
      s.verdict p.ending := by
  unfold ran
  cases p.ending with
  | dropped => rfl
  | finished result => cases result <;> rfl

theorem ran_output
    {σ : Type}
    (s : Script)
    (output : σ → Console)
    (p : Passage (Group Builtin) σ) :
    (s.ran output p).output = output p.world.state := by
  unfold ran
  cases p.ending with
  | dropped => rfl
  | finished result => cases result <;> rfl

/- A script runs as its commands do, and is seen by them. -/
theorem runOn_of_parse
    {σ : Type} [Sink σ]
    {seen : σ → String}
    {echo : String → String}
    {g : Group Builtin}
    (hShows : Sink.Shows seen echo)
    (sink : σ)
    (hParse : (language dialect).parse s.text = .ok g) :
    let commands := (language dialect).commands s.text
    let p := runOn sink g
    p.ending = Placed.ending commands ∧
      seen p.world.state =
        seen sink ++
          String.join
            ((Placed.printed commands).map echo) := by
  intro commands p
  have hFresh := (Language.shows_of_parse hParse).1
  have hOutcome : p.outcome = _ :=
    Group.run_outcome_of_commands Builtin.routine
      .undisturbed (World.initial sink) hFresh
  rcases Placed.runAll_of_shows commands
      (w := World.initial sink) hShows rfl with
    ⟨w, hRun, hSeen⟩
  rw [Language.commands_of_parse hParse, hRun] at hOutcome
  have hWorld : p.world = w :=
    congrArg Outcome.world hOutcome
  rw [hWorld]
  exact ⟨congrArg Outcome.ending hOutcome, hSeen⟩

/- The tree of a script that is accepted is made use of. -/
theorem parsed_of_ok
    {g : Group Builtin}
    {next : Group Builtin → Report}
    (hParse : (language dialect).parse s.text = .ok g) :
    s.parsed dialect next =
      (next g).after ((language dialect).log s.text) := by
  simp only [parsed, hParse]

/- A script that is not accepted is rejected. -/
theorem parsed_rejects
    {cause : ParseError}
    (hParse :
      (language dialect).parse s.text =
        .error (.error cause))
    (next : Group Builtin → Report) :
    (s.parsed dialect next).Rejects s cause := by
  simp only [parsed, hParse]
  exact ⟨rfl, rfl, rfl⟩

/- The verdict on commands recounts them. -/
theorem recounts_of_verdict
    {commands : List (Placed Builtin)}
    {r : Report}
    (hKinds :
      ∀ placed ∈ commands,
        placed.location.kind = placed.command.kind)
    (hVerdict :
      (r.exit, r.errors) =
        s.verdict (Placed.ending commands))
    (hOutput :
      r.output.text =
        String.join
          ((Placed.printed commands).map fun line =>
            line ++ "\n")) :
    r.Recounts s commands where
  exit := by
    have hExit : r.exit = (s.verdict _).1 :=
      congrArg Prod.fst hVerdict
    rw [hExit, s.verdict_success_iff]
    exact Placed.ending_eq_succeeded_iff
  output := hOutput
  calm := by
    have hExit : r.exit = (s.verdict _).1 :=
      congrArg Prod.fst hVerdict
    intro hSuccess
    rw [hExit, s.verdict_success_iff] at hSuccess
    rw [hSuccess] at hVerdict
    exact congrArg Prod.snd hVerdict
  errors := by
    intro early placed late message hCommands hEarly
      hCommand
    have hKind : placed.location.kind = "fail" := by
      rw [hKinds placed (by simp [hCommands]), hCommand]
      rfl
    have hEnding :=
      Placed.ending_of_fail late hEarly hCommand
    rw [← hCommands] at hEnding
    rw [hEnding, s.verdict_of_fail _ hKind] at hVerdict
    exact Prod.mk.inj hVerdict

/-
  The run of a script that is accepted. What is discarded is
  not seen, and nothing else is different.
-/
theorem run_of_parse
    {g : Group Builtin}
    (quiet : Bool)
    (hParse : (language dialect).parse s.text = .ok g) :
    let commands := (language dialect).commands s.text
    let r := s.run dialect quiet
    (r.exit, r.errors) =
        s.verdict (Placed.ending commands) ∧
      r.output.text =
        if quiet then ""
        else
          String.join
            ((Placed.printed commands).map fun line =>
              line ++ "\n") := by
  intro commands r
  cases quiet with
  | true =>
      have hRun :=
        runOn_of_parse Discard.shows .discard hParse
      have hVerdict :=
        s.ran_verdict (fun _ => Console.empty)
          (runOn Discard.discard g)
      have hOutput :=
        s.ran_output (fun _ => Console.empty)
          (runOn Discard.discard g)
      rw [hRun.1] at hVerdict
      simp only [r, run, parsed_of_ok hParse]
      exact ⟨hVerdict, congrArg Console.text hOutput⟩
  | false =>
      have hRun :=
        runOn_of_parse Console.shows Console.empty hParse
      have hVerdict :=
        s.ran_verdict id (runOn Console.empty g)
      have hOutput :=
        s.ran_output id (runOn Console.empty g)
      rw [hRun.1] at hVerdict
      simp only [r, run, parsed_of_ok hParse]
      refine ⟨hVerdict, ?_⟩
      have hText := congrArg Console.text hOutput
      exact hText.trans (hRun.2.trans (String.empty_append))

end Script

------------------------------------------------------------
-- Reports of the Program
------------------------------------------------------------

/- The script that an argument stands for somewhere. -/
def Script.loadIn
    (argument : String)
    (around : Surroundings) :
    Except Diagnostic Script × Surroundings :=
  Script.load (m := StateM Surroundings) argument around

/- A text is decoded from its own bytes. -/
theorem Files.decode_toUTF8
    (text : String) :
    Files.decode text.toUTF8 = .ok text := by
  have hDecoded :
      String.fromUTF8? text.toUTF8 = some text :=
    dif_pos text.isValidUTF8
  unfold decode
  rw [hDecoded]

/- A text on the standard input can be read. -/
theorem Script.loadIn_input
    (files : FileTree)
    (text : String) :
    Script.loadIn inputMark ⟨files, text.toUTF8⟩ =
      (.ok ⟨inputName, text⟩,
        ⟨files, ByteArray.empty⟩) := by
  have hRead :
      (Files.readInput : StateM Surroundings _)
          ⟨files, text.toUTF8⟩ =
        (.ok text, ⟨files, ByteArray.empty⟩) :=
    Prod.ext (Files.decode_toUTF8 text) rfl
  simp only [loadIn, load, loadInput, if_true, bind,
    StateT.bind, hRead]
  rfl

namespace CommandLine

/- What a task comes to somewhere. -/
def performedIn
    (dialect : Dialect)
    (task : Task)
    (around : Surroundings) :
    Except Failure Report × Surroundings :=
  (performIn (m := StateM Surroundings) dialect task).run
    around

/- What is done with a script is done if it can be read. -/
theorem run_of_loadIn
    {argument : String}
    {s : Script}
    {before after : Surroundings}
    (report : Script → Report)
    (hLoad :
      Script.loadIn argument before = (.ok s, after)) :
    let task :
        ExceptT Failure (StateM Surroundings) Report := do
      let script ← orDiagnose (Script.load argument)
      return report script
    task.run before = (.ok (report s), after) := by
  unfold Script.loadIn at hLoad
  simp only [orDiagnose, ExceptT.run, bind, ExceptT.bind,
    ExceptT.mk, ExceptT.lift, StateT.bind, StateT.map,
    Functor.map, liftM, monadLift, MonadLift.monadLift,
    hLoad]
  rfl

/-
  What the program reports about a script that it can read,
  in any dialect, if the parser does not abort. Either the
  script is rejected: checking and running it, with output
  or without, all report the same error and print nothing.
  Or it is accepted: it can be checked, a run of it reports
  on its commands, and a run whose output is discarded is
  different only in that it prints nothing.
-/
theorem performedIn_script
    (dialect : Dialect)
    (argument : String)
    (format : Format)
    (s : Script)
    (before after : Surroundings)
    (hLoad :
      Script.loadIn argument before = (.ok s, after))
    (hReads :
      (Script.language dialect).parse s.text ≠
        .error .aborted) :
    ∃ checked loud quiet : Report,
      performedIn dialect (.check argument format) before =
          (.ok checked, after) ∧
        performedIn dialect (.run argument false) before =
          (.ok loud, after) ∧
        performedIn dialect (.run argument true) before =
          (.ok quiet, after) ∧
        ((∃ cause,
            (Script.language dialect).parse s.text =
                .error (.error cause) ∧
              ∀ r ∈ [checked, loud, quiet],
                r.Rejects s cause) ∨
          (∃ g,
            (Script.language dialect).parse s.text =
              .ok g) ∧
            checked.exit = .success ∧
            loud.Recounts s
              ((Script.language dialect).commands s.text) ∧
            quiet.exit = loud.exit ∧
            quiet.errors = loud.errors ∧
            quiet.output.text = "") := by
  refine
    ⟨s.check dialect format, s.run dialect false,
      s.run dialect true,
      run_of_loadIn (·.check dialect format) hLoad,
      run_of_loadIn (·.run dialect false) hLoad,
      run_of_loadIn (·.run dialect true) hLoad, ?_⟩
  cases hParse : (Script.language dialect).parse s.text with
  | error halt =>
      cases halt with
      | aborted => exact absurd hParse hReads
      | error cause =>
          refine .inl ⟨cause, rfl, ?_⟩
          simp only [List.forall_mem_cons]
          exact
            ⟨Script.parsed_rejects hParse _,
              Script.parsed_rejects hParse _,
              Script.parsed_rejects hParse _,
              List.forall_mem_nil _⟩
  | ok g =>
      rcases Script.run_of_parse false hParse with
        ⟨hLoud, hOutput⟩
      rcases Script.run_of_parse true hParse with
        ⟨hQuiet, hSilent⟩
      have hSame := Prod.mk.inj (hQuiet.trans hLoud.symm)
      refine
        .inr
          ⟨⟨g, rfl⟩, ?_, ?_, hSame.1, hSame.2, hSilent⟩
      · unfold Script.check
        rw [Script.parsed_of_ok hParse]
        rfl
      · apply Script.recounts_of_verdict _ hLoud hOutput
        intro placed hPlaced
        exact Builtin.kind_of_mem_commands hPlaced

/- A script on the standard input fails in a group. -/
theorem performedIn_script_of_input :
    let text :=
      "print message=a\n\x7b\nclear\n" ++
        "fail message=no\n\x7d\nprint message=b\n"
    let around : Surroundings :=
      ⟨⟨Dictionary.empty, []⟩, text.toUTF8⟩
    ∃ loud quiet : Report,
      performedIn .standard (.run "-" false) around =
          (.ok loud, around.drained) ∧
        performedIn .standard (.run "-" true) around =
          (.ok quiet, around.drained) ∧
        loud.exit = .failure ∧
        loud.output.text = "a\n" ∧
        loud.errors =
          "error: <stdin>:4: fail failed: no\n" ++
            "  note: Commands after the failing one " ++
            "were not run\n" ∧
        quiet.exit = .failure ∧
        quiet.errors = loud.errors ∧
        quiet.output.text = "" := by
  intro text around
  let s : Script := ⟨Script.inputName, text⟩
  have hLoad :
      Script.loadIn "-" around = (.ok s, around.drained) :=
    Script.loadIn_input _ text
  have hParse :
      (Script.language .standard).parse text =
        .ok
          ⟨.idle,
            [ .leaf ⟨"print", 1⟩ (.print "a"),
              .group 2 .idle
                [ .leaf ⟨"clear", 3⟩ .clear,
                  .leaf ⟨"fail", 4⟩ (.fail (some "no")) ],
              .leaf ⟨"print", 6⟩ (.print "b") ]⟩ := by
    simp only [text]
    with_unfolding_all rfl
  have hCommands :
      (Script.language .standard).commands text =
        [ ⟨⟨"print", 1⟩, .print "a"⟩,
          ⟨⟨"clear", 3⟩, .clear⟩ ] ++
          ⟨⟨"fail", 4⟩, .fail (some "no")⟩ ::
            [⟨⟨"print", 6⟩, .print "b"⟩] :=
    (Language.commands_of_parse hParse).symm
  rcases performedIn_script .standard "-" .text s around
      around.drained hLoad (by simp [s, hParse]) with
    ⟨_, loud, quiet, _, hLoud, hQuiet,
      hRejected | hAccepted⟩
  · rcases hRejected with ⟨cause, hCause, _⟩
    rw [hParse] at hCause
    cases hCause
  · rcases hAccepted with
      ⟨_, _, hRecounts, hExit, hErrors, hSilent⟩
    have hFail :=
      hRecounts.errors _ _ _ _ hCommands (by decide) rfl
    have hOutput := hRecounts.output
    rw [hCommands] at hOutput
    refine
      ⟨loud, quiet, hLoud, hQuiet, hFail.1, hOutput,
        hFail.2, hExit.trans hFail.1, hErrors, hSilent⟩

end CommandLine

end CommandScript
