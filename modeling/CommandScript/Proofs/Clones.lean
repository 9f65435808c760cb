import CommandScript.Studio
import CommandScript.Proofs.Builtins
import Mathlib.Data.List.Induction
import Mathlib.Logic.Relation

/-
  The clones of a handle. Each task in a studio does one
  thing. A handle goes on to reach the same recorder, and
  two handles reach the same one exactly if they are clones
  of one another. A recorder that has been closed is never
  changed again.

  Key definitions include:
    * `Studio.recorder`
    * `Studio.Moves`
    * `Studio.Kin`
    * `Studio.shares`

  Main statements:
    * `Studio.moves_perform`
    * `Studio.recorder_of_later`
    * `Studio.kin_iff_shares`
-/

namespace CommandScript

------------------------------------------------------------
-- Operations
------------------------------------------------------------

namespace Recorder

/- An open recorder takes every operation. -/
theorem operate_of_open
    {r : Recorder}
    (call : SinkCall)
    (hOpen : r.closed = false) :
    r.operate call = .ok (r.receive call) := by
  cases call with
  | write line => exact writeLine_of_open line hOpen
  | clear => exact clear_of_open hOpen

/- A closed recorder takes none. -/
theorem operate_of_closed
    {r : Recorder}
    (call : SinkCall)
    (hClosed : r.closed = true) :
    r.operate call = .error .closed := by
  cases call with
  | write line => exact if_pos hClosed
  | clear => exact if_pos hClosed

/- To close a recorder again has no effect. -/
theorem close_of_closed
    {r : Recorder}
    (hClosed : r.closed = true) :
    r.close = r := by
  rw [close, ← hClosed]

end Recorder

namespace Studio

------------------------------------------------------------
-- What a Task Does
------------------------------------------------------------

/- The recorder in a slot, empty until it is made. -/
def recorder
    (s : Studio)
    (slot : Nat) : Recorder :=
  s.recorders.getD slot .empty

section Lookup

variable {s : Studio}
variable {handle slot slot' : Nat}

/- What a handle reaches is there. -/
theorem slot_lt
    (hHandle : s.handles[handle]? = some slot) :
    slot < s.recorders.length :=
  s.reached slot (List.mem_of_getElem? hHandle)

/- A deed is done to the recorder that a handle reaches. -/
theorem perform_of_reached
    (hHandle : s.handles[handle]? = some slot)
    (deed : Deed) :
    ∃ slot' : Fin s.recorders.length,
      slot'.val = slot ∧
        s.recorders.get slot' = s.recorder slot ∧
          s.perform (.on handle deed) = s.act slot' deed := by
  rcases List.getElem?_eq_some_iff.mp hHandle with
    ⟨hLess, rfl⟩
  have hSlot := slot_lt hHandle
  refine ⟨⟨_, hSlot⟩, rfl, ?_, ?_⟩
  · unfold recorder
    rw [List.getD_eq_getElem?_getD,
      List.getElem?_eq_getElem hSlot]
    rfl
  · simp only [perform, slot?, dif_pos hLess]

/- A recorder is found where it has been put. -/
theorem recorder_put
    (hSlot : slot < s.recorders.length)
    (r : Recorder) :
    (s.put slot r).recorder slot' =
      if slot = slot' then r else s.recorder slot' := by
  simp only [recorder, put, List.getD_eq_getElem?_getD]
  split
  · rename_i hSame
    subst hSame
    rw [List.getElem?_set_self hSlot]
    rfl
  · rename_i hOther
    rw [List.getElem?_set_ne hOther]

/- A new recorder is empty, and others stay the same. -/
theorem recorder_addRecorder
    (s : Studio)
    (slot : Nat) :
    s.addRecorder.recorder slot = s.recorder slot := by
  simp only [recorder, addRecorder,
    List.getD_eq_getElem?_getD]
  by_cases hLess : slot < s.recorders.length
  · rw [List.getElem?_append_left hLess]
  · have hLe := Nat.le_of_not_lt hLess
    rw [List.getElem?_append_right hLe,
      List.getElem?_eq_none hLe, List.getElem?_singleton]
    split <;> rfl

end Lookup

/-
  What a task makes of a studio, and its answer. Each task
  does one thing: it adds a recorder or a handle, does an
  operation, closes a recorder, or changes nothing.
-/
inductive Moves (s : Studio) :
    Task → Studio → Reply → Prop
| created :
    Moves s .create s.addRecorder (.made s.handles.length)
| missing
    {handle : Nat}
    {deed : Deed}
    (hHandle : s.handles[handle]? = none) :
    Moves s (.on handle deed) s .missing
| taken
    {handle slot : Nat}
    {call : SinkCall}
    (hHandle : s.handles[handle]? = some slot)
    (hOpen : (s.recorder slot).closed = false) :
    Moves s (.on handle (.use call))
      (s.put slot ((s.recorder slot).receive call)) .done
| refused
    {handle slot : Nat}
    {call : SinkCall}
    (hHandle : s.handles[handle]? = some slot)
    (hClosed : (s.recorder slot).closed = true) :
    Moves s (.on handle (.use call)) s (.refused .closed)
| closed
    {handle slot : Nat}
    (hHandle : s.handles[handle]? = some slot) :
    Moves s (.on handle .close)
      (s.put slot (s.recorder slot).close) .done
| cloned
    {handle : Nat}
    {slot : Fin s.recorders.length}
    (hHandle : s.handles[handle]? = some slot.val) :
    Moves s (.on handle .clone) (s.addHandle slot)
      (.made s.handles.length)
| listedCalls
    {handle slot : Nat}
    (hHandle : s.handles[handle]? = some slot) :
    Moves s (.on handle .calls) s
      (.calls (s.recorder slot).calls)
| listedLines
    {handle slot : Nat}
    (hHandle : s.handles[handle]? = some slot) :
    Moves s (.on handle .lines) s
      (.lines (s.recorder slot).lines)

theorem moves_perform
    (s : Studio)
    (task : Task) :
    s.Moves task (s.perform task).1 (s.perform task).2 := by
  cases task with
  | create => exact .created
  | on handle deed =>
      cases hHandle : s.handles[handle]? with
      | none =>
          have hLe := List.getElem?_eq_none_iff.mp hHandle
          have hNone : s.slot? handle = none :=
            dif_neg (Nat.not_lt_of_le hLe)
          simp only [perform, hNone]
          exact .missing hHandle
      | some slot =>
          rcases perform_of_reached hHandle deed with
            ⟨slot', rfl, hRecorder, hPerform⟩
          rw [hPerform]
          cases deed with
          | use call =>
              simp only [act, hRecorder]
              cases hClosed :
                  (s.recorder slot').closed with
              | false =>
                  rw [Recorder.operate_of_open call hClosed]
                  exact .taken hHandle hClosed
              | true =>
                  rw [Recorder.operate_of_closed call
                    hClosed]
                  exact .refused hHandle hClosed
          | close =>
              simp only [act, hRecorder]
              exact .closed hHandle
          | clone => exact .cloned hHandle
          | calls =>
              simp only [act, hRecorder]
              exact .listedCalls hHandle
          | lines =>
              simp only [act, hRecorder]
              exact .listedLines hHandle

section Step

variable {s after : Studio}
variable {task : Task}
variable {reply : Reply}
variable {handle slot : Nat}

/- Handles are only added. -/
theorem Moves.handles_extended
    (hMoves : s.Moves task after reply) :
    s.handles <+: after.handles := by
  cases hMoves with
  | created | cloned hHandle =>
      exact List.prefix_append _ _
  | missing hHandle | taken hHandle hOpen
  | refused hHandle hClosed | closed hHandle
  | listedCalls hHandle | listedLines hHandle =>
      exact List.prefix_refl _

/- A handle goes on to reach what it reaches. -/
theorem Moves.handle_eq
    (hMoves : s.Moves task after reply)
    (hHandle : s.handles[handle]? = some slot) :
    after.handles[handle]? = some slot := by
  have hLess := (List.getElem?_eq_some_iff.mp hHandle).1
  rcases hMoves.handles_extended with ⟨added, hAdded⟩
  rw [← hAdded, List.getElem?_append_left hLess, hHandle]

/- A new handle reaches a new recorder, or is a clone. -/
theorem Moves.new_handle
    (hMoves : s.Moves task after reply)
    (hHandle : after.handles[handle]? = some slot) :
    s.handles[handle]? = some slot ∨
      handle = s.handles.length ∧ reply = .made handle ∧
        (slot = s.recorders.length ∨
          ∃ origin,
            task = .on origin .clone ∧
              s.handles[origin]? = some slot) := by
  have hLast
      {added : Nat}
      (hAdded :
        (s.handles ++ [added])[handle]? = some slot) :
      s.handles[handle]? = some slot ∨
        handle = s.handles.length ∧ added = slot := by
    rcases Nat.lt_or_ge handle s.handles.length with
      hLess | hLe
    · rw [List.getElem?_append_left hLess] at hAdded
      exact .inl hAdded
    · rw [List.getElem?_append_right hLe,
        List.getElem?_singleton] at hAdded
      split at hAdded
      · exact .inr ⟨by omega, Option.some.inj hAdded⟩
      · cases hAdded
  cases hMoves with
  | created =>
      rcases hLast hHandle with hOld | ⟨rfl, rfl⟩
      · exact .inl hOld
      · exact .inr ⟨rfl, rfl, .inl rfl⟩
  | @cloned origin slot' hOrigin =>
      rcases hLast hHandle with hOld | ⟨rfl, rfl⟩
      · exact .inl hOld
      · exact .inr ⟨rfl, rfl, .inr ⟨origin, rfl, hOrigin⟩⟩
  | missing hNone | taken hReached hOpen
  | refused hReached hClosed | closed hReached
  | listedCalls hReached | listedLines hReached =>
      exact .inl hHandle

/- A recorder that is closed stays as it is. -/
theorem Moves.recorder_of_closed
    (hMoves : s.Moves task after reply)
    (hClosed : (s.recorder slot).closed = true) :
    after.recorder slot = s.recorder slot := by
  cases hMoves with
  | created => exact recorder_addRecorder s slot
  | @taken handle slot' call hHandle hOpen =>
      rw [recorder_put (slot_lt hHandle)]
      split
      · rename_i hSame
        rw [hSame, hClosed] at hOpen
        cases hOpen
      · rfl
  | @closed handle slot' hHandle =>
      rw [recorder_put (slot_lt hHandle)]
      split
      · rename_i hSame
        rw [hSame, Recorder.close_of_closed hClosed]
      · rfl
  | missing hHandle | refused hHandle hRefused
  | cloned hHandle | listedCalls hHandle
  | listedLines hHandle => rfl

end Step

------------------------------------------------------------
-- Histories
------------------------------------------------------------

theorem history_concat
    (tasks : List Task)
    (task : Task) :
    history (tasks ++ [task]) =
      ((history tasks).perform task).1 :=
  Steps.after_concat perform empty tasks task

theorem transcript_concat
    (tasks : List Task)
    (task : Task) :
    transcript (tasks ++ [task]) =
      transcript tasks ++
        [⟨task, ((history tasks).perform task).2⟩] :=
  Steps.exchanges_concat perform empty tasks task

/- A handle reaches the same slot for ever. -/
theorem handle_of_later
    {early : List Task}
    {handle slot : Nat}
    (hHandle : (history early).handles[handle]? = some slot)
    (late : List Task) :
    (history (early ++ late)).handles[handle]? =
      some slot := by
  refine
    Steps.after_append_keeps
      (P := fun s : Studio => s.handles[handle]? = some slot)
      ?_ hHandle
  intro task _ s hReached
  exact (s.moves_perform task).handle_eq hReached

/- A recorder that is closed is never changed again. -/
theorem recorder_of_later
    {early : List Task}
    {slot : Nat}
    (hClosed :
      ((history early).recorder slot).closed = true)
    (late : List Task) :
    (history (early ++ late)).recorder slot =
      (history early).recorder slot := by
  refine
    Steps.after_append_keeps
      (P := fun s : Studio =>
        s.recorder slot = (history early).recorder slot)
      ?_ rfl
  intro task _ s hSame
  rw [← hSame] at hClosed ⊢
  exact (s.moves_perform task).recorder_of_closed hClosed

------------------------------------------------------------
-- Clones
------------------------------------------------------------

/- A handle was asked for a clone, and another was made. -/
def IsClone
    (log : List Exchange)
    (origin clone : Nat) : Prop :=
  ⟨.on origin .clone, .made clone⟩ ∈ log

/- Handles that are clones of one another, in some steps. -/
def Kin (log : List Exchange) : Nat → Nat → Prop :=
  Relation.EqvGen (IsClone log)

/- Two handles reach the same recorder. -/
def shares
    (s : Studio)
    (handle other : Nat) : Bool :=
  decide (s.handles[handle]? = s.handles[other]?)

theorem Kin.append
    {log : List Exchange}
    {handle other : Nat}
    (hKin : Kin log handle other)
    (later : List Exchange) :
    Kin (log ++ later) handle other := by
  have hClones : IsClone log ≤ IsClone (log ++ later) :=
    fun _ _ => List.mem_append_left later
  exact Relation.EqvGen.mono hClones _ _ hKin

/- A clone reaches what its origin reaches. -/
theorem exists_slot_of_isClone
    {tasks : List Task}
    {origin clone : Nat}
    (hClone : IsClone (transcript tasks) origin clone) :
    ∃ slot,
      (history tasks).handles[origin]? = some slot ∧
        (history tasks).handles[clone]? = some slot := by
  induction tasks using List.reverseRecOn with
  | nil => cases hClone
  | append_singleton tasks task ih =>
      have hMoves := (history tasks).moves_perform task
      rw [IsClone, transcript_concat] at hClone
      rw [history_concat]
      rcases List.mem_append.mp hClone with hOld | hNew
      · rcases ih hOld with ⟨slot, hOrigin, hMade⟩
        exact
          ⟨slot, hMoves.handle_eq hOrigin,
            hMoves.handle_eq hMade⟩
      · rw [List.mem_singleton, Exchange.mk.injEq] at hNew
        rcases hNew with ⟨rfl, hReply⟩
        rw [← hReply] at hMoves
        generalize
          ((history tasks).perform (.on origin .clone)).1 =
            after at hMoves ⊢
        cases hMoves with
        | @cloned _ slot hOrigin =>
            have hLess :=
              (List.getElem?_eq_some_iff.mp hOrigin).1
            refine ⟨slot, ?_, List.getElem?_concat_length⟩
            exact
              (List.getElem?_append_left hLess).trans
                hOrigin

/- All clones of a handle reach the same recorder. -/
theorem Kin.handle_eq
    {tasks : List Task}
    {handle other : Nat}
    (hKin : Kin (transcript tasks) handle other) :
    (history tasks).handles[handle]? =
      (history tasks).handles[other]? := by
  induction hKin with
  | rel origin clone hClone =>
      rcases exists_slot_of_isClone hClone with
        ⟨slot, hOrigin, hMade⟩
      rw [hOrigin, hMade]
  | refl handle => rfl
  | symm handle other hKin ih => exact ih.symm
  | trans handle other third hFirst hSecond ih ih' =>
      exact ih.trans ih'

/- A new handle is kin to all that reach the same. -/
theorem kin_of_new
    {s : Studio}
    {task : Task}
    {log : List Exchange}
    {handle other slot : Nat}
    (hKin :
      ∀ origin,
        s.handles[origin]? = some slot →
          Kin log origin other)
    (hOther : s.handles[other]? = some slot)
    (hNew :
      slot = s.recorders.length ∨
        ∃ origin,
          task = .on origin .clone ∧
            s.handles[origin]? = some slot) :
    Kin (log ++ [⟨task, .made handle⟩]) handle other := by
  rcases hNew with rfl | ⟨origin, rfl, hOrigin⟩
  · exact absurd (slot_lt hOther) (Nat.lt_irrefl _)
  · have hClone :
        Kin (log ++ [⟨.on origin .clone, .made handle⟩])
          origin handle :=
      .rel _ _
        (List.mem_append_right _ (List.mem_singleton_self _))
    exact
      (hClone.symm _ _).trans _ _ _
        ((hKin origin hOrigin).append _)

/- Handles that reach the same recorder are kin. -/
theorem kin_of_handle_eq
    {tasks : List Task}
    {handle other slot : Nat}
    (hHandle : (history tasks).handles[handle]? = some slot)
    (hOther : (history tasks).handles[other]? = some slot) :
    Kin (transcript tasks) handle other := by
  induction tasks using List.reverseRecOn
    generalizing handle other with
  | nil => cases hHandle
  | append_singleton tasks task ih =>
      have hMoves := (history tasks).moves_perform task
      rw [history_concat] at hHandle hOther
      rw [transcript_concat]
      rcases hMoves.new_handle hHandle,
          hMoves.new_handle hOther with
        ⟨hOld | ⟨rfl, hReply, hNew⟩,
          hOld' | ⟨rfl, hReply', hNew'⟩⟩
      · exact (ih hOld hOld').append _
      · rw [hReply']
        exact
          .symm _ _
            (kin_of_new (fun _ hOrigin => ih hOrigin hOld)
              hOld hNew')
      · rw [hReply]
        exact
          kin_of_new (fun _ hOrigin => ih hOrigin hOld')
            hOld' hNew
      · exact .refl _

/- Handles are kin if they reach the same recorder. -/
theorem kin_iff_shares
    {tasks : List Task}
    {handle other : Nat}
    (hHandle : handle < (history tasks).handles.length) :
    Kin (transcript tasks) handle other ↔
      (history tasks).shares handle other = true := by
  rw [shares, decide_eq_true_iff]
  constructor
  · exact Kin.handle_eq
  · intro hSame
    have hSlot := List.getElem?_eq_getElem hHandle
    exact kin_of_handle_eq hSlot (hSame.symm.trans hSlot)

end Studio

end CommandScript
