import CommandScript.Builtin
import CommandScript.Proofs.ParsedTree
import CommandScript.Proofs.Positions
import CommandScript.Proofs.Reach

/-
  What the builtin commands do in one run. A command is made
  of its own kind only; it takes the time of its delay, and
  calls the sink as it is configured to. A cancellation cuts
  a delay short.

  Key definitions include:
    * `Builtin.length`
    * `Builtin.call?`
    * `Recorder.receive`
    * `World.received`
    * `World.passed`
    * `Plan.Spares`

  Main statements:
    * `Builtin.kind_of_construct`
    * `Builtin.location_of_parse`
    * `Builtin.run_of_spared`
    * `Builtin.run_of_cut`
-/

namespace CommandScript

namespace Builtin

------------------------------------------------------------
-- Kinds
------------------------------------------------------------

section Kinds

variable {params : Params}
variable {command : Builtin}

/- A `print` is configured as one. -/
theorem kind_of_configurePrint
    (hMade : configurePrint params = .ok command) :
    command.kind = "print" := by
  unfold configurePrint at hMade
  rcases Attempt.exists_of_bind_eq_ok hMade with
    ⟨_, _, hMade⟩
  rcases Attempt.exists_of_bind_eq_ok hMade with
    ⟨message, _, hMade⟩
  cases hMade
  rfl

/- A `fail` is configured as one. -/
theorem kind_of_configureFail
    (hMade : configureFail params = .ok command) :
    command.kind = "fail" := by
  unfold configureFail at hMade
  rcases Attempt.exists_of_bind_eq_ok hMade with
    ⟨_, _, hMade⟩
  cases hMade
  rfl

/- A `delay` is configured as one. -/
theorem kind_of_configureDelay
    (hMade : configureDelay params = .ok command) :
    command.kind = "delay" := by
  unfold configureDelay at hMade
  rcases Attempt.exists_of_bind_eq_ok hMade with
    ⟨_, _, hMade⟩
  rcases Attempt.exists_of_bind_eq_ok hMade with
    ⟨seconds, _, hMade⟩
  rcases Attempt.exists_of_bind_eq_ok hMade with
    ⟨duration, _, hMade⟩
  -- Two lengths are as wrong as none.
  cases seconds <;> cases duration <;> cases hMade <;> rfl

/- A command without parameters is what it is. -/
theorem eq_of_plain
    {κ : Type}
    {command command' : κ}
    (hMade :
      Constructor.plain command params = .ok command') :
    command' = command := by
  unfold Constructor.plain at hMade
  cases hDeny : params.denyAll with
  | error cause =>
      rw [hDeny] at hMade
      cases hMade
  | ok _ =>
      rw [hDeny] at hMade
      cases hMade
      rfl

/- A command is configured as one of its kind. -/
theorem kind_of_configure
    {start : Builtin}
    (hMade : start.configure params = .ok command) :
    command.kind = start.kind := by
  have hExcept
      {result : Except ConfigError Builtin}
      (hResult : Attempt.ofExcept result = .ok command) :
      result = .ok command := by
    cases result with
    | error cause => cases hResult
    | ok made =>
        cases hResult
        rfl
  cases start with
  | print message =>
      exact kind_of_configurePrint (hExcept hMade)
  | delay duration => exact kind_of_configureDelay hMade
  | clear => rw [eq_of_plain hMade]
  | fail message =>
      exact kind_of_configureFail (hExcept hMade)

/- What is registered under a kind makes commands of it. -/
theorem kind_of_construct
    {kind : String}
    (hMade :
      registry.construct kind params =
        some (.ok command)) :
    command.kind = kind := by
  rcases construct_eq_some_iff.mp hMade with
    ⟨start, rfl, hStart⟩
  exact kind_of_configure hStart

end Kinds

end Builtin

------------------------------------------------------------
-- Leaves of a Script
------------------------------------------------------------

namespace Node

variable {κ : Type}

mutual

/- Every leaf of a node has its row. -/
theorem row_of_mem_leaves
    (depth : Nat)
    {node : Node κ}
    {leaf : Leaf κ}
    (hLeaf : leaf ∈ node.leaves) :
    ∃ inner,
      Row.leaf inner leaf.location leaf.command ∈
        node.rows depth := by
  cases node with
  | leaf location command =>
      simp only [leaves, List.mem_singleton] at hLeaf
      rw [hLeaf]
      exact ⟨depth, by simp [rows]⟩
  | group line state children =>
      simp only [leaves] at hLeaf
      rcases row_of_mem_leavesFrom 0 (depth + 1) hLeaf with
        ⟨inner, hRow⟩
      exact ⟨inner, by simp [rows, hRow]⟩

theorem row_of_mem_leavesFrom
    (index depth : Nat)
    {nodes : List (Node κ)}
    {leaf : Leaf κ}
    (hLeaf : leaf ∈ leavesFrom index nodes) :
    ∃ inner,
      Row.leaf inner leaf.location leaf.command ∈
        rowsOfAll depth nodes := by
  cases nodes with
  | nil => simp [leavesFrom] at hLeaf
  | cons node rest =>
      simp only [leavesFrom, List.mem_append] at hLeaf
      rcases hLeaf with hLeaf | hLeaf
      · rcases List.mem_map.mp hLeaf with
          ⟨child, hChild, rfl⟩
        rcases row_of_mem_leaves depth hChild with
          ⟨inner, hRow⟩
        refine ⟨inner, ?_⟩
        rw [rowsOfAll, List.mem_append]
        exact .inl hRow
      · rcases row_of_mem_leavesFrom (index + 1) depth
            hLeaf with
          ⟨inner, hRow⟩
        refine ⟨inner, ?_⟩
        rw [rowsOfAll, List.mem_append]
        exact .inr hRow

end

end Node

namespace Builtin

/- The leaves of a script have the kinds of their commands. -/
theorem location_of_parse
    {dialect : Dialect}
    {text : String}
    {g : Group Builtin}
    {leaf : Leaf Builtin}
    (hParse :
      (⟨registry, dialect⟩ : Language Builtin).parse text =
        .ok g)
    (hLeaf : leaf ∈ g.leaves) :
    leaf.location =
      ⟨leaf.command.kind, leaf.location.line⟩ := by
  rcases Language.shows_of_parse hParse with ⟨_, hShows⟩
  rcases Node.row_of_mem_leavesFrom 0 0 hLeaf with
    ⟨depth, hRow⟩
  rcases List.mem_iff_getElem?.mp hRow with ⟨index, hAt⟩
  rcases getElem?_of_forall₂ hShows index with
    ⟨_, hNone⟩ | ⟨site, row, _, hRow', hSite⟩
  · unfold Group.rows at hNone
    rw [hNone] at hAt
    cases hAt
  · unfold Group.rows at hRow'
    rw [hRow'] at hAt
    cases hAt
    generalize hLocation : leaf.location = location at hSite
    generalize leaf.command = command at hSite ⊢
    cases hSite with
    | command hRole hCalls hDepth =>
        rw [kind_of_construct hCalls.2]

------------------------------------------------------------
-- Single Runs
------------------------------------------------------------

/- How long a command takes. -/
def length : Builtin → Nat
| .delay duration => duration.nanoseconds
| _ => 0

/- What a command does to the sink. -/
def call? : Builtin → Option SinkCall
| .print message => some (.write message)
| .clear => some .clear
| _ => none

/- Whether a command fails. -/
def fails : Builtin → Bool
| .fail _ => true
| _ => false

end Builtin

namespace Recorder

/- The sink after an operation. -/
def receive (r : Recorder) : SinkCall → Recorder
| .write line =>
    { r with
      calls := r.calls ++ [.write line]
      lines := r.lines ++ [line] }
| .clear =>
    { r with calls := r.calls ++ [.clear], lines := [] }

/- An open sink takes every line. -/
theorem writeLine_of_open
    {r : Recorder}
    (line : String)
    (hOpen : r.closed = false) :
    r.writeLine line = .ok (r.receive (.write line)) := by
  unfold writeLine
  rw [if_neg (ne_true_of_eq_false hOpen)]
  rfl

/- An open sink can be cleared. -/
theorem clear_of_open
    {r : Recorder}
    (hOpen : r.closed = false) :
    r.clear = .ok (r.receive .clear) := by
  unfold clear
  rw [if_neg (ne_true_of_eq_false hOpen)]
  rfl

/- Operations are kept in their order. -/
theorem calls_foldl_receive
    (r : Recorder)
    (calls : List SinkCall) :
    (calls.foldl receive r).calls = r.calls ++ calls := by
  induction calls generalizing r with
  | nil => exact (List.append_nil r.calls).symm
  | cons call calls ih =>
      have hFirst :
          (r.receive call).calls = r.calls ++ [call] := by
        cases call <;> rfl
      rw [List.foldl_cons, ih, hFirst, List.append_assoc]
      rfl

/- No operation opens or closes a sink. -/
theorem closed_foldl_receive
    (r : Recorder)
    (calls : List SinkCall) :
    (calls.foldl receive r).closed = r.closed := by
  induction calls generalizing r with
  | nil => rfl
  | cons call calls ih =>
      rw [List.foldl_cons, ih]
      cases call <;> rfl

end Recorder

namespace Plan

/- Nothing befalls a run up to a moment. -/
def Spares
    (plan : Plan)
    (moment : Nat) : Prop :=
  plan.dropAt = none ∧
    ∀ cancel, plan.cancelAt = some cancel → moment < cancel

theorem Spares.of_le
    {plan : Plan}
    {moment later : Nat}
    (hSpares : plan.Spares later)
    (hLe : moment ≤ later) :
    plan.Spares moment := by
  refine ⟨hSpares.1, ?_⟩
  intro cancel hCancel
  exact Nat.lt_of_le_of_lt hLe (hSpares.2 cancel hCancel)

/- A run that is left alone is spared. -/
theorem undisturbed_spares
    (moment : Nat) :
    undisturbed.Spares moment := by
  refine ⟨rfl, ?_⟩
  intro cancel hCancel
  cases hCancel

/- A run is spared until it is cancelled. -/
theorem spares_of_lt
    {moment cancel : Nat}
    (hLater : moment < cancel) :
    (⟨some cancel, none⟩ : Plan).Spares moment := by
  refine ⟨rfl, ?_⟩
  intro other hOther
  cases hOther
  exact hLater

end Plan

namespace World

/-
  The world after some time in which the sink has received
  some calls, and nothing else has happened.
-/
def received
    (w : World Recorder)
    (length : Nat)
    (calls : List SinkCall) : World Recorder where
  clock := w.clock + length
  cancelled := w.cancelled
  state := calls.foldl Recorder.receive w.state

/- No call opens or closes a sink. -/
theorem received_closed
    (w : World Recorder)
    (length : Nat)
    (calls : List SinkCall) :
    (w.received length calls).state.closed =
      w.state.closed :=
  w.state.closed_foldl_receive calls

/- The world after a command that has not been cut short. -/
def passed
    (w : World Recorder)
    (command : Builtin) : World Recorder :=
  w.received command.length command.call?.toList

/- A sleep that is spared is slept to its end. -/
theorem sleep_of_spared
    {σ : Type}
    {plan : Plan}
    {length : Nat}
    {w : World σ}
    (hLive : w.cancelled = false)
    (hSpares : plan.Spares (w.clock + length)) :
    w.sleep plan length true =
      ⟨false, { w with clock := w.clock + length }, []⟩ := by
  unfold sleep
  by_cases hNone : length = 0
  · simp [hNone]
  · have hFilter :
        plan.cancelAt.filter (· < w.clock + length) =
          none := by
      rw [Option.filter_eq_none_iff]
      intro cancel hCancel
      have hLater := hSpares.2 cancel hCancel
      simp only [decide_eq_true_eq]
      omega
    simp [hNone, hLive, hFilter, hSpares.1,
      sleepUntil_none, advance]

/- A sleep is cut short by a cancellation on its way. -/
theorem sleep_of_cut
    {σ : Type}
    {length cancel : Nat}
    {w : World σ}
    (hLive : w.cancelled = false)
    (hAfter : w.clock < cancel)
    (hBefore : cancel < w.clock + length) :
    w.sleep ⟨some cancel, none⟩ length true =
      ⟨false, ⟨cancel, true, w.state⟩,
        [⟨.cancelling, []⟩]⟩ := by
  have hSome : length ≠ 0 := by omega
  have hMax : max w.clock cancel = cancel := by omega
  unfold sleep
  simp [hSome, hLive, hBefore, Option.filter,
    sleepUntil_none, advance, World.cancel, cancelLog, hMax]

end World

namespace Builtin

variable {plan : Plan}
variable {path : List Location}
variable {command : Builtin}
variable {w : World Recorder}

/- A command runs to its end when it is spared. -/
theorem run_of_spared
    (hOpen : w.state.closed = false)
    (hLive : w.cancelled = false)
    (hSpares : plan.Spares (w.clock + command.length))
    (hSucceeds : command.fails = false) :
    ((routine command).run plan path w).outcome =
      ⟨.finished .succeeded, w.passed command⟩ := by
  rcases w with ⟨clock, cancelled, state⟩
  cases hLive
  cases command with
  | fail message => cases hSucceeds
  | print message =>
      have hWrite :=
        Recorder.writeLine_of_open message hOpen
      simp [routine, Routine.unlessCancelled, Routine.run,
        Sink.writeLine, hWrite, ofSink, Routine.succeed,
        Trail.outcome, World.alter, World.passed,
        World.received, length, call?]
  | clear =>
      have hClear := Recorder.clear_of_open hOpen
      simp [routine, Routine.unlessCancelled, Routine.run,
        Sink.clear, hClear, ofSink, Routine.succeed,
        Trail.outcome, World.alter, World.passed,
        World.received, length, call?]
  | delay duration =>
      have hSleep :=
        World.sleep_of_spared (w := ⟨clock, false, state⟩)
          rfl hSpares
      simp only [length] at hSleep
      simp [routine, Routine.unlessCancelled, Routine.run,
        hSleep, Routine.succeed, Trail.outcome,
        World.passed, World.received, length, call?]

/- A delay is cut short by a cancellation. -/
theorem run_of_cut
    {duration : Duration}
    {cancel : Nat}
    (hLive : w.cancelled = false)
    (hAfter : w.clock < cancel)
    (hBefore : cancel < w.clock + duration.nanoseconds) :
    ((routine (.delay duration)).run ⟨some cancel, none⟩
        path w).outcome =
      ⟨.finished (.failed .cancelled),
        ⟨cancel, true, w.state⟩⟩ := by
  have hSleep := World.sleep_of_cut hLive hAfter hBefore
  simp [routine, Routine.unlessCancelled, Routine.run,
    hLive, hSleep, Routine.fail, Trail.outcome]

end Builtin

end CommandScript
