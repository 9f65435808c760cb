import CommandScript.Routine

/-
  What a run of a routine does to the clock, and what it
  comes to when it is dropped. A drop cuts a run off in a
  sleep and changes nothing before it.

  Key definitions include:
    * `Outcome`
    * `Plan.kept`
    * `Cut`

  Main statements:
    * `World.sleep_cut`
    * `Routine.run_outcome_path`
    * `Routine.clock_le_run`
    * `Routine.run_kept_finished`
    * `Routine.run_of_finished`
-/

namespace CommandScript

------------------------------------------------------------
-- Outcomes
------------------------------------------------------------

/- How a run ends, and the world it leaves. -/
structure Outcome (σ : Type) where
  ending : Ending
  world : World σ
deriving DecidableEq, Repr

namespace Outcome

variable {σ τ : Type}

/- The same outcome seen with another state. -/
def view
    (get : σ → τ)
    (o : Outcome σ) : Outcome τ :=
  ⟨o.ending, o.world.view get⟩

end Outcome

/- What a trail comes to, its log aside. -/
def Trail.outcome
    {σ : Type}
    (trail : Trail σ) : Outcome σ :=
  ⟨trail.ending, trail.world⟩

/- The same plan for a run that is not dropped. -/
def Plan.kept (plan : Plan) : Plan where
  cancelAt := plan.cancelAt
  dropAt := none

------------------------------------------------------------
-- Sleeping
------------------------------------------------------------

namespace World

variable {σ τ : Type}

/- A sleep to a moment does the same to every view. -/
theorem sleepUntil_view
    (get : σ → τ)
    (dropAt : Option Nat)
    (moment : Nat)
    (w : World σ) :
    let waking := w.sleepUntil dropAt moment
    (w.view get).sleepUntil dropAt moment =
      ⟨waking.dropped, waking.world.view get,
        waking.log⟩ := by
  unfold sleepUntil
  cases dropAt.filter (· < moment) <;> rfl

/- A sleep does the same to every view of a world. -/
theorem sleep_view
    (get : σ → τ)
    (plan : Plan)
    (length : Nat)
    (wakes : Bool)
    (w : World σ) :
    let waking := w.sleep plan length wakes
    (w.view get).sleep plan length wakes =
      ⟨waking.dropped, waking.world.view get,
        waking.log⟩ := by
  have hCancel :
      ∀ v : World σ,
        (v.view get).cancel = v.cancel.view get :=
    fun v => rfl
  have hLog :
      ∀ v : World σ,
        (v.view get).cancelLog = v.cancelLog :=
    fun v => rfl
  have hView :
      (w.view get).clock = w.clock ∧
        (w.view get).cancelled = w.cancelled :=
    ⟨rfl, rfl⟩
  unfold sleep
  simp only [hView]
  split
  · rfl
  · split
    · exact sleepUntil_view get _ _ w
    · rename_i cancel _
      simp only [sleepUntil_view get plan.dropAt cancel w,
        hCancel, hLog, sleepUntil_view]
      split
      · rfl
      · split <;> rfl

/-
  What a sleep can come to: it is over at once, it lasts to
  a moment, cancellation wakes it, or it goes on after a
  cancellation.
-/
theorem sleep_cases
    {motive : Waking σ → Prop}
    (plan : Plan)
    (length : Nat)
    (wakes : Bool)
    (w : World σ)
    (atOnce : motive ⟨false, w, []⟩)
    (lasting :
      ∀ moment, motive (w.sleepUntil plan.dropAt moment))
    (woken :
      ∀ cancel,
        let before := w.sleepUntil plan.dropAt cancel
        motive
          ⟨false, before.world.cancel,
            before.world.cancelLog⟩)
    (resumed :
      ∀ cancel moment,
        let before := w.sleepUntil plan.dropAt cancel
        let waking :=
          before.world.cancel.sleepUntil plan.dropAt moment
        motive
          ⟨waking.dropped, waking.world,
            before.world.cancelLog ++ waking.log⟩) :
    motive (w.sleep plan length wakes) := by
  unfold sleep
  dsimp only
  split
  · exact atOnce
  · split
    · exact lasting _
    · rename_i cancel _
      split
      · exact lasting _
      · split
        · exact woken cancel
        · exact resumed cancel _

/- A sleep to a moment leaves the state as it is. -/
theorem sleepUntil_state
    (dropAt : Option Nat)
    (moment : Nat)
    (w : World σ) :
    (w.sleepUntil dropAt moment).world.state = w.state := by
  unfold sleepUntil
  split <;> rfl

/- A sleep leaves the state as it is. -/
theorem sleep_state
    (plan : Plan)
    (length : Nat)
    (wakes : Bool)
    (w : World σ) :
    (w.sleep plan length wakes).world.state = w.state := by
  apply sleep_cases
    (motive := fun waking => waking.world.state = w.state)
  · rfl
  · intro moment
    exact sleepUntil_state _ _ w
  · intro cancel
    exact sleepUntil_state _ _ w
  · intro cancel moment
    exact
      (sleepUntil_state _ _ _).trans
        (sleepUntil_state _ _ w)

/- A sleep to a moment never puts the clock back. -/
theorem clock_le_sleepUntil
    (dropAt : Option Nat)
    (moment : Nat)
    (w : World σ) :
    w.clock ≤ (w.sleepUntil dropAt moment).world.clock := by
  unfold sleepUntil
  split <;> exact Nat.le_max_left _ _

/- A sleep never puts the clock back. -/
theorem clock_le_sleep
    (plan : Plan)
    (length : Nat)
    (wakes : Bool)
    (w : World σ) :
    w.clock ≤ (w.sleep plan length wakes).world.clock := by
  apply sleep_cases
    (motive := fun waking => w.clock ≤ waking.world.clock)
  · exact Nat.le_refl _
  · intro moment
    exact clock_le_sleepUntil _ _ w
  · intro cancel
    exact clock_le_sleepUntil _ _ w
  · intro cancel moment
    have hResumed :=
      clock_le_sleepUntil plan.dropAt moment
        (w.sleepUntil plan.dropAt cancel).world.cancel
    exact
      Nat.le_trans
        (clock_le_sleepUntil plan.dropAt cancel w) hResumed

/- Without a drop a sleep to a moment reaches it. -/
theorem sleepUntil_none
    (moment : Nat)
    (w : World σ) :
    w.sleepUntil none moment =
      ⟨false, w.advance moment, []⟩ := rfl

/- A drop comes before the end of a sleep, or not. -/
theorem sleepUntil_some
    (drop moment : Nat)
    (w : World σ) :
    w.sleepUntil (some drop) moment =
      if drop < moment then ⟨true, w.advance drop, []⟩
      else ⟨false, w.advance moment, []⟩ := by
  unfold sleepUntil
  by_cases hBefore : drop < moment
  · simp [Option.filter, hBefore]
  · simp [Option.filter, hBefore]

/- A run that is kept is not dropped in a sleep. -/
theorem sleep_kept_not_dropped
    (plan : Plan)
    (length : Nat)
    (wakes : Bool)
    (w : World σ) :
    (w.sleep plan.kept length wakes).dropped = false := by
  apply sleep_cases
    (motive := fun waking => waking.dropped = false)
  · rfl
  · intro moment
    rfl
  · intro cancel
    rfl
  · intro cancel moment
    rfl

end World

------------------------------------------------------------
-- Cut Sleeps
------------------------------------------------------------

/-
  How a sleep compares with the same sleep in a run that is
  kept. It is the same sleep and ends before the drop, or
  the drop cuts it short of its end.
-/
inductive Cut
    {σ : Type}
    (dropAt : Option Nat)
    (w : World σ) : Waking σ → Waking σ → Prop where
| whole
    {waking : Waking σ}
    (hAwake : waking.dropped = false)
    (hInTime :
      ∀ drop, dropAt = some drop → w.clock ≤ drop →
        waking.world.clock ≤ drop) :
    Cut dropAt w waking waking
| short
    {waking full : Waking σ}
    {drop : Nat}
    (hDrop : dropAt = some drop)
    (hDropped : waking.dropped = true)
    (hAwake : full.dropped = false)
    (hClock :
      w.clock ≤ drop →
        waking.world.clock = drop ∧
          drop < full.world.clock) :
    Cut dropAt w waking full

namespace Cut

variable {σ : Type}
variable {dropAt : Option Nat}
variable {w w' : World σ}
variable {waking full : Waking σ}

/- What is noted before does not matter to a drop. -/
theorem prepend
    (noted : List Entry)
    (hCut : Cut dropAt w waking full) :
    Cut dropAt w
      ⟨waking.dropped, waking.world, noted ++ waking.log⟩
      ⟨full.dropped, full.world, noted ++ full.log⟩ := by
  cases hCut with
  | whole hAwake hInTime => exact .whole hAwake hInTime
  | short hDrop hDropped hAwake hClock =>
      exact .short hDrop hDropped hAwake hClock

/- A sleep that starts later, but before the drop. -/
theorem of_later
    (hCut : Cut dropAt w' waking full)
    (hInTime :
      ∀ drop, dropAt = some drop → w.clock ≤ drop →
        w'.clock ≤ drop) :
    Cut dropAt w waking full := by
  cases hCut with
  | whole hAwake hEnds =>
      refine .whole hAwake ?_
      intro drop hDrop hClock
      exact hEnds drop hDrop (hInTime drop hDrop hClock)
  | short hDrop hDropped hAwake hEnds =>
      refine .short hDrop hDropped hAwake ?_
      intro hClock
      exact hEnds (hInTime _ hDrop hClock)

end Cut

namespace World

variable {σ : Type}

/- A drop cuts a sleep to a moment, or leaves it whole. -/
theorem sleepUntil_cut
    (dropAt : Option Nat)
    (moment : Nat)
    (w : World σ) :
    Cut dropAt w (w.sleepUntil dropAt moment)
      (w.sleepUntil none moment) := by
  cases dropAt with
  | none => exact .whole rfl (by simp)
  | some drop =>
      rw [sleepUntil_some, sleepUntil_none]
      split
      · rename_i hBefore
        apply Cut.short rfl rfl rfl
        intro hClock
        exact
          ⟨Nat.max_eq_right hClock,
            Nat.lt_of_lt_of_le hBefore
              (Nat.le_max_right _ _)⟩
      · rename_i hBefore
        apply Cut.whole rfl
        intro later hLater hClock
        cases hLater
        exact Nat.max_le.mpr
          ⟨hClock, Nat.le_of_not_lt hBefore⟩

/- A drop cuts a sleep, or leaves it whole. -/
theorem sleep_cut
    (plan : Plan)
    (length : Nat)
    (wakes : Bool)
    (w : World σ) :
    Cut plan.dropAt w (w.sleep plan length wakes)
      (w.sleep plan.kept length wakes) := by
  unfold sleep
  dsimp only [Plan.kept]
  split
  · exact .whole rfl fun _ _ hClock => hClock
  · split
    · exact sleepUntil_cut _ _ w
    · rename_i cancel _
      generalize hBefore :
        w.sleepUntil plan.dropAt cancel = before
      generalize hKept :
        w.sleepUntil none cancel = keptBefore
      have hCut :
          Cut plan.dropAt w before keptBefore := by
        rw [← hBefore, ← hKept]
        exact sleepUntil_cut _ _ w
      cases hCut with
      | whole hAwake hInTime =>
          simp only [hAwake, Bool.false_eq_true, if_false]
          split
          · exact .whole rfl hInTime
          · have hNext :=
              sleepUntil_cut plan.dropAt (w.clock + length)
                before.world.cancel
            exact (hNext.of_later hInTime).prepend _
      | short hDrop hDropped hAwake hClock =>
          simp only [hDropped, hAwake, if_true,
            Bool.false_eq_true, if_false]
          -- The kept sleep goes on past the cancellation.
          split
          · exact .short hDrop hDropped rfl hClock
          · apply Cut.short hDrop hDropped rfl
            intro hStart
            have hResumed :=
              clock_le_sleepUntil none (w.clock + length)
                keptBefore.world.cancel
            exact
              ⟨(hClock hStart).1,
                Nat.lt_of_lt_of_le (hClock hStart).2
                  hResumed⟩

end World

------------------------------------------------------------
-- Running
------------------------------------------------------------

/- A plan without a drop is kept. -/
theorem Plan.kept_of_dropAt_none
    {plan : Plan}
    (hDrop : plan.dropAt = none) :
    plan.kept = plan := by
  rcases plan with ⟨cancelAt, dropAt⟩
  cases hDrop
  rfl

namespace Routine

variable {σ : Type}

/- A run of a sleep goes on when the sleep is over. -/
theorem run_sleep_of_awake
    {plan : Plan}
    {path : List Location}
    {length : Nat}
    {wakes : Bool}
    {next : Routine σ}
    {w : World σ}
    (hAwake :
      (w.sleep plan length wakes).dropped = false) :
    let waking := w.sleep plan length wakes
    let trail := next.run plan path waking.world
    (sleep length wakes next).run plan path w =
      ⟨trail.ending, trail.world,
        waking.log ++ trail.log⟩ := by
  simp [run, hAwake]

/- A run of a sleep is over when the sleep is dropped. -/
theorem run_sleep_of_dropped
    {plan : Plan}
    {path : List Location}
    {length : Nat}
    {wakes : Bool}
    {next : Routine σ}
    {w : World σ}
    (hDropped :
      (w.sleep plan length wakes).dropped = true) :
    let waking := w.sleep plan length wakes
    (sleep length wakes next).run plan path w =
      ⟨.dropped, waking.world, waking.log⟩ := by
  simp [run, hDropped]

/- The commands around a run show in its log only. -/
theorem run_outcome_path
    (routine : Routine σ)
    (plan : Plan)
    (path path' : List Location)
    (w : World σ) :
    (routine.run plan path w).outcome =
      (routine.run plan path' w).outcome := by
  induction routine generalizing w with
  | finish result => rfl
  | look next ih => exact ih w w
  | act change next ih => exact ih (w.alter change)
  | note remark next ih => exact ih w
  | sleep length wakes next ih =>
      cases hSleep :
          (w.sleep plan length wakes).dropped with
      | true =>
          rw [run_sleep_of_dropped hSleep,
            run_sleep_of_dropped hSleep]
      | false =>
          rw [run_sleep_of_awake hSleep,
            run_sleep_of_awake hSleep]
          exact ih (w.sleep plan length wakes).world

/- A run never puts the clock back. -/
theorem clock_le_run
    (routine : Routine σ)
    (plan : Plan)
    (path : List Location)
    (w : World σ) :
    w.clock ≤ (routine.run plan path w).world.clock := by
  induction routine generalizing w with
  | finish result => exact Nat.le_refl _
  | look next ih => exact ih w w
  | act change next ih => exact ih (w.alter change)
  | note remark next ih => exact ih w
  | sleep length wakes next ih =>
      have hSleep := w.clock_le_sleep plan length wakes
      cases hDropped :
          (w.sleep plan length wakes).dropped with
      | true =>
          rw [run_sleep_of_dropped hDropped]
          exact hSleep
      | false =>
          rw [run_sleep_of_awake hDropped]
          exact Nat.le_trans hSleep (ih _)

/- A run that is kept ends with a result. -/
theorem run_kept_finished
    (routine : Routine σ)
    (plan : Plan)
    (path : List Location)
    (w : World σ) :
    ∃ result,
      (routine.run plan.kept path w).ending =
        .finished result := by
  induction routine generalizing w with
  | finish result => exact ⟨result, rfl⟩
  | look next ih => exact ih w w
  | act change next ih => exact ih (w.alter change)
  | note remark next ih => exact ih w
  | sleep length wakes next ih =>
      have hAwake :=
        w.sleep_kept_not_dropped plan length wakes
      rw [run_sleep_of_awake hAwake]
      exact ih _

/-
  A run that ends with a result is the one that is kept, and
  it ends before the drop.
-/
theorem run_of_finished
    {routine : Routine σ}
    {plan : Plan}
    {path : List Location}
    {w : World σ}
    (hEnding :
      (routine.run plan path w).ending ≠ .dropped) :
    routine.run plan path w =
        routine.run plan.kept path w ∧
      ∀ drop, plan.dropAt = some drop → w.clock ≤ drop →
        (routine.run plan path w).world.clock ≤ drop := by
  induction routine generalizing w with
  | finish result => exact ⟨rfl, fun _ _ hClock => hClock⟩
  | look next ih => exact ih w hEnding
  | act change next ih => exact ih hEnding
  | note remark next ih =>
      rcases ih hEnding with ⟨hSame, hInTime⟩
      exact ⟨by simp only [run, hSame], hInTime⟩
  | sleep length wakes next ih =>
      have hCut := w.sleep_cut plan length wakes
      generalize hSleep :
        w.sleep plan length wakes = waking at hCut
      generalize hKept :
        w.sleep plan.kept length wakes = full at hCut
      cases hCut with
      | short hDrop hDropped hAwake hClock =>
          have hRun :
              ((sleep length wakes next).run plan path
                w).ending = .dropped := by
            simp [run, hSleep, hDropped]
          exact absurd hRun hEnding
      | whole hAwake hInTime =>
          have hNext :
              (next.run plan path waking.world).ending ≠
                .dropped := by
            simpa [run, hSleep, hAwake] using hEnding
          rcases ih hNext with ⟨hSame, hNextInTime⟩
          constructor
          · simp [run, hSleep, hKept, hAwake, hSame]
          · intro drop hDrop hClock
            have hWaking := hInTime drop hDrop hClock
            simpa [run, hSleep, hAwake] using
              hNextInTime drop hDrop hWaking

end Routine

end CommandScript
