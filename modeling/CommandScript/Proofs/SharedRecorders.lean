import CommandScript.Proofs.Clones
import Mathlib.Data.List.DropRight

/-
  What recorders show through their handles. All clones of a
  handle show the operations that one of them was used for
  and that were not refused, and the lines among them since
  the last time the lines were cleared. Once one of them has
  been closed, nothing changes that any more.

  Key definitions include:
    * `SinkCall.linesLeft`
    * `Studio.Accounts`
    * `Studio.Shows`

  Main statements:
    * `Studio.Moves.accounts`
    * `Studio.accounts_history`
    * `Studio.clones_show_one_record`
-/

namespace CommandScript

------------------------------------------------------------
-- Lines since the Last Clearing
------------------------------------------------------------

namespace SinkCall

/- The line that is written, if one is. -/
def line? : SinkCall → Option String
| .write line => some line
| .clear => none

/- The lines that are written after the last clearing. -/
def linesLeft (calls : List SinkCall) : List String :=
  (calls.rtakeWhile (· ≠ .clear)).filterMap line?

theorem linesLeft_concat_write
    (calls : List SinkCall)
    (line : String) :
    linesLeft (calls ++ [.write line]) =
      linesLeft calls ++ [line] := by
  unfold linesLeft
  rw [List.rtakeWhile_concat_pos _ _ _ (by simp),
    List.filterMap_append]
  rfl

theorem linesLeft_concat_clear
    (calls : List SinkCall) :
    linesLeft (calls ++ [.clear]) = [] := by
  unfold linesLeft
  rw [List.rtakeWhile_concat_neg _ _ _ (by simp)]
  rfl

end SinkCall

namespace Recorder

/- A recorder shows the lines that its calls have left. -/
def IsConsistent (r : Recorder) : Prop :=
  r.lines = SinkCall.linesLeft r.calls

theorem IsConsistent.receive
    {r : Recorder}
    (hConsistent : r.IsConsistent)
    (call : SinkCall) :
    (r.receive call).IsConsistent := by
  unfold IsConsistent at hConsistent ⊢
  cases call with
  | write line =>
      simp only [Recorder.receive,
        SinkCall.linesLeft_concat_write, hConsistent]
  | clear =>
      simp only [Recorder.receive,
        SinkCall.linesLeft_concat_clear]

end Recorder

namespace Studio

------------------------------------------------------------
-- What Recorders Account For
------------------------------------------------------------

/- The operation that one of some handles was used for. -/
def Exchange.taken?
    (kin : Nat → Bool) : Exchange → Option SinkCall
| ⟨.on handle (.use call), .done⟩ =>
    if kin handle then some call else none
| _ => none

/- One of some handles was closed. -/
def IsClosed
    (log : List Exchange)
    (kin : Nat → Prop) : Prop :=
  ∃ handle, kin handle ∧ ⟨.on handle .close, .done⟩ ∈ log

theorem isClosed_concat_iff
    {log : List Exchange}
    {kin : Nat → Prop}
    {x : Exchange} :
    IsClosed (log ++ [x]) kin ↔
      IsClosed log kin ∨
        ∃ handle, kin handle ∧
          x = ⟨.on handle .close, .done⟩ := by
  simp only [IsClosed, List.mem_append,
    List.mem_singleton, and_or_left, exists_or, eq_comm]

/-
  A recorder accounts for all that was done through some
  handles, and for nothing else.
-/
structure Accounts
    (r : Recorder)
    (kin : Nat → Bool)
    (log : List Exchange) : Prop where
  calls : r.calls = log.filterMap (Exchange.taken? kin)
  consistent : r.IsConsistent
  closed :
    r.closed = true ↔
      IsClosed log fun handle => kin handle = true

namespace Accounts

variable {r : Recorder}
variable {kin : Nat → Bool}
variable {log : List Exchange}

/- Something is done that does not concern the handles. -/
theorem unconcerned
    (hAccounts : Accounts r kin log)
    {x : Exchange}
    (hTaken : x.taken? kin = none)
    (hOpen :
      ∀ handle,
        kin handle = true →
          x ≠ ⟨.on handle .close, .done⟩) :
    Accounts r kin (log ++ [x]) := by
  refine ⟨?_, hAccounts.consistent, ?_⟩
  · rw [hAccounts.calls, List.filterMap_append,
      List.filterMap_cons_none hTaken, List.filterMap_nil,
      List.append_nil]
  · rw [hAccounts.closed, isClosed_concat_iff, or_iff_left]
    rintro ⟨handle, hKin, hClose⟩
    exact hOpen handle hKin hClose

/- An operation is taken through one of the handles. -/
theorem taken
    (hAccounts : Accounts r kin log)
    {handle : Nat}
    (hKin : kin handle = true)
    (call : SinkCall) :
    Accounts (r.receive call) kin
      (log ++ [⟨.on handle (.use call), .done⟩]) := by
  have hTaken :
      Exchange.taken? kin ⟨.on handle (.use call), .done⟩ =
        some call := if_pos hKin
  have hClosed : (r.receive call).closed = r.closed := by
    cases call <;> rfl
  refine ⟨?_, hAccounts.consistent.receive call, ?_⟩
  · rw [List.filterMap_append,
      List.filterMap_cons_some hTaken, List.filterMap_nil,
      ← hAccounts.calls]
    exact r.calls_foldl_receive [call]
  · rw [hClosed, hAccounts.closed, isClosed_concat_iff,
      or_iff_left]
    rintro ⟨_, _, hClose⟩
    cases hClose

/- One of the handles is closed. -/
theorem close
    (hAccounts : Accounts r kin log)
    {handle : Nat}
    (hKin : kin handle = true) :
    Accounts r.close kin
      (log ++ [⟨.on handle .close, .done⟩]) := by
  refine ⟨?_, hAccounts.consistent, ?_⟩
  · rw [List.filterMap_append,
      List.filterMap_cons_none rfl, List.filterMap_nil,
      List.append_nil]
    exact hAccounts.calls
  · rw [isClosed_concat_iff]
    exact iff_of_true rfl (.inr ⟨handle, hKin, rfl⟩)

end Accounts

/- Some handles are those that reach a slot. -/
def AllReach
    (s : Studio)
    (kin : Nat → Bool)
    (slot : Nat) : Prop :=
  ∀ handle slot',
    s.handles[handle]? = some slot' →
      (kin handle = true ↔ slot' = slot)

/- Whatever is done, a recorder accounts for it. -/
theorem Moves.accounts
    {s after : Studio}
    {task : Task}
    {reply : Reply}
    {log : List Exchange}
    {kin : Nat → Bool}
    {slot : Nat}
    (hMoves : s.Moves task after reply)
    (hReach : s.AllReach kin slot)
    (hAccounts : Accounts (s.recorder slot) kin log) :
    Accounts (after.recorder slot) kin
      (log ++ [⟨task, reply⟩]) := by
  cases hMoves with
  | created =>
      rw [recorder_addRecorder]
      exact hAccounts.unconcerned rfl nofun
  | @taken handle slot' call hHandle hOpen =>
      have hKin := hReach handle slot' hHandle
      rw [recorder_put (slot_lt hHandle)]
      split
      · rename_i hSame
        subst hSame
        exact hAccounts.taken (hKin.mpr rfl) call
      · rename_i hOther
        exact
          hAccounts.unconcerned
            (if_neg (hOther ∘ hKin.mp)) nofun
  | @closed handle slot' hHandle =>
      have hKin := hReach handle slot' hHandle
      rw [recorder_put (slot_lt hHandle)]
      split
      · rename_i hSame
        subst hSame
        exact hAccounts.close (hKin.mpr rfl)
      · rename_i hOther
        refine hAccounts.unconcerned rfl ?_
        rintro _ hClosed ⟨⟩
        exact hOther (hKin.mp hClosed)
  | @missing handle deed hHandle =>
      have hTaken :
          Exchange.taken? kin ⟨.on handle deed, .missing⟩ =
            none := by
        cases deed <;> rfl
      exact hAccounts.unconcerned hTaken nofun
  | refused hHandle hClosed | cloned hHandle
  | listedCalls hHandle | listedLines hHandle =>
      exact hAccounts.unconcerned rfl nofun

/- In a history each recorder accounts for its handles. -/
theorem accounts_history
    {tasks : List Task}
    {kin : Nat → Bool}
    {slot : Nat}
    (hReach : (history tasks).AllReach kin slot) :
    Accounts ((history tasks).recorder slot) kin
      (transcript tasks) := by
  induction tasks using List.reverseRecOn with
  | nil =>
      refine ⟨rfl, rfl, ?_⟩
      exact iff_of_false Bool.false_ne_true nofun
  | append_singleton tasks task ih =>
      have hMoves := (history tasks).moves_perform task
      rw [history_concat] at hReach ⊢
      rw [transcript_concat]
      have hBefore : (history tasks).AllReach kin slot :=
        fun handle slot' hHandle =>
          hReach handle slot' (hMoves.handle_eq hHandle)
      exact hMoves.accounts hBefore (ih hBefore)

------------------------------------------------------------
-- What Clones Show
------------------------------------------------------------

/- What calls and lines are shown through a handle. -/
def Shows
    (s : Studio)
    (handle : Nat)
    (calls : List SinkCall)
    (lines : List String) : Prop :=
  s.perform (.on handle .calls) = (s, .calls calls) ∧
    s.perform (.on handle .lines) = (s, .lines lines)

section Answers

variable {s : Studio}
variable {handle slot : Nat}

theorem shows_of_reached
    (hHandle : s.handles[handle]? = some slot) :
    s.Shows handle (s.recorder slot).calls
      (s.recorder slot).lines := by
  have hAct (deed : Deed) := perform_of_reached hHandle deed
  constructor
  · rcases hAct .calls with ⟨_, _, hRecorder, hPerform⟩
    rw [hPerform, act, hRecorder]
  · rcases hAct .lines with ⟨_, _, hRecorder, hPerform⟩
    rw [hPerform, act, hRecorder]

/- An open recorder takes every operation. -/
theorem reply_of_open
    (hHandle : s.handles[handle]? = some slot)
    (hOpen : (s.recorder slot).closed = false)
    (call : SinkCall) :
    (s.perform (.on handle (.use call))).2 = .done := by
  rcases perform_of_reached hHandle (.use call) with
    ⟨slot', _, hRecorder, hPerform⟩
  rw [hPerform, act, hRecorder,
    Recorder.operate_of_open call hOpen]

/- A closed recorder takes none, and nothing changes. -/
theorem perform_of_closed
    (hHandle : s.handles[handle]? = some slot)
    (hClosed : (s.recorder slot).closed = true)
    (call : SinkCall) :
    s.perform (.on handle (.use call)) =
      (s, .refused .closed) := by
  rcases perform_of_reached hHandle (.use call) with
    ⟨slot', _, hRecorder, hPerform⟩
  rw [hPerform, act, hRecorder,
    Recorder.operate_of_closed call hClosed]

end Answers

/-
  What a handle shows, whatever has been done. Its clones
  and the handles it was cloned from show the same. Their
  calls are the operations that they were used for and that
  were not refused, in order. Their lines are those that are
  written after the last clearing. Every operation is taken
  as long as none of these handles has been closed. From
  then on every operation is refused and nothing changes for
  ever, whatever else is done.
-/
theorem clones_show_one_record
    (tasks : List Task)
    (handle : Nat)
    (hHandle : handle < (history tasks).handles.length) :
    let s := history tasks
    let log := transcript tasks
    let calls :=
      log.filterMap (Exchange.taken? (s.shares handle))
    let lines := SinkCall.linesLeft calls
    (∀ other,
      s.shares handle other = true ↔ Kin log handle other) ∧
    (∀ other,
      Kin log handle other →
        s.Shows other calls lines ∧
          ∀ call,
            (s.perform (.on other (.use call))).2 = .done ↔
              ¬ IsClosed log (Kin log handle)) ∧
    (IsClosed log (Kin log handle) →
      ∀ late other,
        let s' := history (tasks ++ late)
        Kin (transcript (tasks ++ late)) handle other →
          s'.Shows other calls lines ∧
            ∀ call,
              s'.perform (.on other (.use call)) =
                (s', .refused .closed)) := by
  intro s log calls lines
  have hKin (other : Nat) :
      s.shares handle other = true ↔ Kin log handle other :=
    (kin_iff_shares hHandle).symm
  have hSlot :
      s.handles[handle]? = some s.handles[handle] :=
    List.getElem?_eq_getElem hHandle
  generalize s.handles[handle] = slot at hSlot
  have hReach : s.AllReach (s.shares handle) slot := by
    intro other slot' hOther
    rw [shares, decide_eq_true_iff, hSlot, hOther,
      Option.some.injEq, eq_comm]
  have hAccounts := accounts_history hReach
  have hClosed :
      (s.recorder slot).closed = true ↔
        IsClosed log (Kin log handle) := by
    rw [hAccounts.closed]
    simp only [IsClosed, hKin]
    rfl
  have hCalls : (s.recorder slot).calls = calls :=
    hAccounts.calls
  have hLines : (s.recorder slot).lines = lines :=
    hAccounts.consistent.trans
      (congrArg SinkCall.linesLeft hCalls)
  refine ⟨hKin, ?_, ?_⟩
  · intro other hOther
    have hReached : s.handles[other]? = some slot :=
      hOther.handle_eq.symm.trans hSlot
    have hShows := shows_of_reached hReached
    rw [hCalls, hLines] at hShows
    refine ⟨hShows, ?_⟩
    intro call
    rw [← hClosed, Bool.not_eq_true]
    constructor
    · intro hDone
      by_contra hRefused
      rw [perform_of_closed hReached
        (Bool.eq_true_of_not_eq_false hRefused)] at hDone
      cases hDone
    · intro hOpen
      exact reply_of_open hReached hOpen call
  · intro hIsClosed late other s' hOther
    have hEnd := hClosed.mpr hIsClosed
    have hSame : s'.recorder slot = s.recorder slot :=
      recorder_of_later hEnd late
    have hLater : s'.handles[handle]? = some slot :=
      handle_of_later hSlot late
    have hReached : s'.handles[other]? = some slot :=
      hOther.handle_eq.symm.trans hLater
    have hShows := shows_of_reached hReached
    rw [hSame, hCalls, hLines] at hShows
    rw [← hSame] at hEnd
    exact ⟨hShows, perform_of_closed hReached hEnd⟩

/- Two handles of one recorder, one of which is closed. -/
theorem clones_show_one_record_after_close :
    let tasks : List Task :=
      [ .create,
        .on 0 .clone,
        .on 1 (.use (.write "first")),
        .on 0 (.use .clear),
        .create,
        .on 2 (.use (.write "other")),
        .on 0 (.use (.write "second")),
        .on 1 .close,
        .on 0 (.use (.write "third")) ]
    let calls : List SinkCall :=
      [.write "first", .clear, .write "second"]
    0 < (history tasks).handles.length ∧
      Kin (transcript tasks) 0 1 ∧
      (history tasks).Shows 1 calls ["second"] ∧
      ∀ late other,
        Kin (transcript (tasks ++ late)) 0 other →
          (history (tasks ++ late)).Shows other calls
            ["second"] := by
  intro tasks calls
  have hHandle : 0 < (history tasks).handles.length := by
    decide
  rcases clones_show_one_record tasks 0 hHandle with
    ⟨hKin, hShows, hLate⟩
  have hClone : Kin (transcript tasks) 0 1 :=
    (hKin 1).mp (by decide)
  have hClosed :
      IsClosed (transcript tasks)
        (Kin (transcript tasks) 0) :=
    ⟨1, hClone, by decide⟩
  exact
    ⟨hHandle, hClone, (hShows 1 hClone).1,
      fun late other hOther =>
        (hLate hClosed late other hOther).1⟩

end Studio

end CommandScript
