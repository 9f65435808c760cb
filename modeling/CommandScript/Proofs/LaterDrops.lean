import CommandScript.Proofs.Positions
import CommandScript.Proofs.Routines

/-
  The same run dropped at different moments. What ends
  before the earlier drop ends the same with the later one,
  and the later drop finds every group in the same state or
  further on. So the states of all groups move forward while
  a run goes on.

  Key definitions include:
    * `Plan.Within`
    * `Node.Lags`

  Main statements:
    * `Routine.run_of_within`
    * `Node.runFrom_lags`
    * `Group.run_lags`
-/

namespace CommandScript

/- The same plan, but for a drop that is not as early. -/
structure Plan.Within (plan longer : Plan) : Prop where
  cancelAt : longer.cancelAt = plan.cancelAt
  dropAt :
    ∀ later, longer.dropAt = some later →
      ∃ drop, plan.dropAt = some drop ∧ drop ≤ later

------------------------------------------------------------
-- Sleeps and Routines
------------------------------------------------------------

section Routines

variable {σ : Type}
variable {plan longer : Plan}
variable {w : World σ}

/- A sleep that is not dropped earlier is not later. -/
theorem World.sleepUntil_of_within
    {moment : Nat}
    (hWithin : plan.Within longer)
    (hAwake :
      (w.sleepUntil plan.dropAt moment).dropped = false) :
    w.sleepUntil longer.dropAt moment =
      w.sleepUntil plan.dropAt moment := by
  have hDropAt := hWithin.dropAt
  cases hLonger : longer.dropAt with
  | none =>
      cases hPlan : plan.dropAt with
      | none => rfl
      | some drop =>
          rw [hPlan, sleepUntil_some] at hAwake
          rw [sleepUntil_none, sleepUntil_some]
          by_cases hBefore : drop < moment
          · rw [if_pos hBefore] at hAwake
            cases hAwake
          · rw [if_neg hBefore]
  | some later =>
      rcases hDropAt later hLonger with ⟨drop, hDrop, hLe⟩
      rw [hDrop, sleepUntil_some] at hAwake
      rw [hDrop, sleepUntil_some, sleepUntil_some]
      by_cases hBefore : drop < moment
      · rw [if_pos hBefore] at hAwake
        cases hAwake
      · have hLater : ¬ later < moment := by omega
        rw [if_neg hBefore, if_neg hLater]

/- The same for a sleep that may be cancelled. -/
theorem World.sleep_of_within
    {length : Nat}
    {wakes : Bool}
    (hWithin : plan.Within longer)
    (hAwake :
      (w.sleep plan length wakes).dropped = false) :
    w.sleep longer length wakes =
      w.sleep plan length wakes := by
  unfold sleep at hAwake ⊢
  dsimp only at hAwake ⊢
  rw [hWithin.cancelAt]
  split
  · rfl
  · rename_i hSleeps
    rw [if_neg hSleeps] at hAwake
    cases hCancel :
        plan.cancelAt.filter (· < w.clock + length) with
    | none =>
        rw [hCancel] at hAwake
        exact sleepUntil_of_within hWithin hAwake
    | some cancel =>
        rw [hCancel] at hAwake
        simp only at hAwake ⊢
        cases hBefore :
            (w.sleepUntil plan.dropAt cancel).dropped with
        | true =>
            rw [if_pos hBefore, hBefore] at hAwake
            cases hAwake
        | false =>
            rw [hBefore] at hAwake
            simp only [Bool.false_eq_true, if_false]
              at hAwake
            rw [sleepUntil_of_within hWithin hBefore,
              hBefore]
            simp only [Bool.false_eq_true, if_false]
            -- Only a sleep that goes on can be dropped yet.
            cases wakes with
            | true => rfl
            | false =>
                simp only [Bool.false_eq_true, if_false]
                  at hAwake ⊢
                rw [sleepUntil_of_within hWithin hAwake]

/- A routine that is not dropped earlier is not later. -/
theorem Routine.run_of_within
    {routine : Routine σ}
    {path : List Location}
    (hWithin : plan.Within longer)
    (hEnds :
      (routine.run plan path w).ending ≠ .dropped) :
    routine.run longer path w = routine.run plan path w := by
  induction routine generalizing w with
  | finish result => rfl
  | look next ih => exact ih w hEnds
  | act change next ih => exact ih hEnds
  | note remark next ih =>
      simp only [run] at hEnds ⊢
      rw [ih hEnds]
  | sleep length wakes next ih =>
      cases hSleep :
          (w.sleep plan length wakes).dropped with
      | true =>
          rw [run_sleep_of_dropped hSleep] at hEnds
          exact absurd rfl hEnds
      | false =>
          rw [run_sleep_of_awake hSleep] at hEnds
          simp only [run]
          rw [World.sleep_of_within hWithin hSleep, hSleep]
          simp only [Bool.false_eq_true, if_false]
          rw [ih hEnds]

end Routines

------------------------------------------------------------
-- Trees
------------------------------------------------------------

namespace Node

variable {κ σ : Type}
variable {routine : κ → Routine σ}
variable {plan longer : Plan}

mutual

/- A node that is not dropped earlier is not later. -/
theorem run_of_within
    {path : List Location}
    {node : Node κ}
    {w : World σ}
    (hWithin : plan.Within longer)
    (hEnds :
      (node.run routine plan path w).ending ≠ .dropped) :
    node.run routine longer path w =
      node.run routine plan path w := by
  cases node with
  | leaf location command =>
      simp only [run] at hEnds ⊢
      rw [Routine.run_of_within hWithin hEnds]
  | group line state children =>
      cases state with
      | running index => simp only [run]
      | completed => simp only [run]
      | idle =>
          simp only [run, Passage.map] at hEnds ⊢
          rw [runFrom_of_within hWithin hEnds]

theorem runFrom_of_within
    {path : List Location}
    {index : Nat}
    {nodes : List (Node κ)}
    {w : World σ}
    (hWithin : plan.Within longer)
    (hEnds :
      (runFrom routine plan path index nodes
        w).ending ≠ .dropped) :
    runFrom routine longer path index nodes w =
      runFrom routine plan path index nodes w := by
  cases nodes with
  | nil => simp only [runFrom]
  | cons node rest =>
      have hNode :
          (node.run routine plan (path ++ [node.location])
            w).ending ≠ .dropped := by
        intro hDropped
        simp only [runFrom, hDropped] at hEnds
        exact hEnds rfl
      simp only [runFrom] at hEnds ⊢
      rw [run_of_within hWithin hNode]
      generalize
        node.run routine plan (path ++ [node.location]) w =
          p at hEnds ⊢
      rcases p with ⟨subject, ending, w', log⟩
      cases ending with
      | dropped => rfl
      | finished result =>
          cases result with
          | failed cause => rfl
          | succeeded =>
              simp only at hEnds ⊢
              rw [runFrom_of_within hWithin hEnds]

end

/-
  How a node that is left by a run lags behind the one that
  is left by the same run when it goes on for longer: it is
  run only there, or it is run in both.
-/
def Lags
    (routine : κ → Routine σ)
    (plan longer : Plan)
    (node node' : Node κ) : Prop :=
  node.Becomes routine longer node' ∨
    ∃ before path w,
      node =
          (Node.run routine plan path before w).subject ∧
        node' =
          (Node.run routine longer path before w).subject

/- Children that are run for longer are further on. -/
theorem runFrom_lags
    (routine : κ → Routine σ)
    (hWithin : plan.Within longer)
    (path : List Location)
    (index : Nat)
    (nodes : List (Node κ))
    (w : World σ) :
    let g :=
      (runFrom routine plan path index nodes w).subject
    let g' :=
      (runFrom routine longer path index nodes w).subject
    g.state ≤ g'.state ∧
      List.Forall₂ (Lags routine plan longer) g.children
        g'.children := by
  have hSame (rest : List (Node κ)) :
      List.Forall₂ (Lags routine plan longer) rest rest :=
    List.forall₂_same.mpr fun _ _ => .inl (.inl rfl)
  induction nodes generalizing index w with
  | nil =>
      simp only [runFrom]
      exact ⟨le_refl _, .nil⟩
  | cons node rest ih =>
      have hHead :
          Lags routine plan longer
            (node.run routine plan (path ++ [node.location])
              w).subject
            (node.run routine longer
              (path ++ [node.location]) w).subject :=
        .inr ⟨node, _, w, rfl, rfl⟩
      by_cases hEnds :
          (node.run routine plan (path ++ [node.location])
            w).ending = .dropped
      -- The later drop may find any of the later children.
      · simp only [runFrom, hEnds]
        generalize
          node.run routine longer (path ++ [node.location])
            w = q at hHead ⊢
        rcases q with ⟨subject, ending, w', log⟩
        cases ending with
        | dropped =>
            exact ⟨le_refl _, .cons hHead (hSame rest)⟩
        | finished result =>
            cases result with
            | failed cause =>
                exact
                  ⟨GroupState.le_completed _,
                    .cons hHead (hSame rest)⟩
            | succeeded =>
                rcases runFrom_cases routine longer path
                    (index + 1) rest w' with
                  ⟨hState, hIndex, hRest⟩
                refine
                  ⟨GroupState.running_le hState ?_,
                    .cons hHead (hRest.imp fun _ _ => .inl)⟩
                intro reached hRunning
                have hLow := (hIndex reached hRunning).1
                omega
      · have hRun := run_of_within hWithin hEnds
        simp only [runFrom, hRun] at hHead ⊢
        generalize
          node.run routine plan (path ++ [node.location])
            w = p at hHead ⊢
        rcases p with ⟨subject, ending, w', log⟩
        cases ending with
        | dropped =>
            exact ⟨le_refl _, .cons hHead (hSame rest)⟩
        | finished result =>
            cases result with
            | failed cause =>
                exact ⟨le_refl _, .cons hHead (hSame rest)⟩
            | succeeded =>
                rcases ih (index + 1) w' with
                  ⟨hState, hRest⟩
                exact ⟨hState, .cons hHead hRest⟩

namespace Lags

variable {node node' : Node κ}

/- A node is as far as another, or its children lag. -/
theorem cases
    (hWithin : plan.Within longer)
    (hLags : node.Lags routine plan longer node') :
    node' = node ∨
      ∃ line state children state' children',
        node = .group line state children ∧
          node' = .group line state' children' ∧
          state ≤ state' ∧
          List.Forall₂ (Lags routine plan longer) children
            children' := by
  rcases hLags with hBecomes | ⟨before, path, w, rfl, rfl⟩
  · cases node with
    | leaf location command => exact .inl hBecomes.of_leaf
    | group line state children =>
        rcases hBecomes.cases with
          hSame | ⟨_, _, hNode, rfl, _, _, hChildren⟩
        · exact .inl hSame
        · exact
            .inr
              ⟨_, _, _, _, _, rfl, hNode,
                GroupState.idle_le _,
                hChildren.imp fun _ _ => .inl⟩
  · cases before with
    | leaf location command =>
        refine .inl ?_
        simp only [run]
    | group line state children =>
        cases state with
        | running index =>
            refine .inl ?_
            simp only [run]
        | completed =>
            refine .inl ?_
            simp only [run]
        | idle =>
            rcases runFrom_lags routine hWithin path 0
                children w with
              ⟨hState, hChildren⟩
            simp only [run, Passage.map]
            exact
              .inr
                ⟨_, _, _, _, _, rfl, rfl, hState,
                  hChildren⟩

/- Nodes lag at every address, or they are the same. -/
theorem precedes
    {inner : Node κ}
    {address : List Nat}
    (hWithin : plan.Within longer)
    (hLags : node.Lags routine plan longer node')
    (hInner : node.find? address = some inner) :
    ∃ inner',
      node'.find? address = some inner' ∧
        inner.Precedes inner' := by
  induction address generalizing node node' with
  | nil =>
      cases hInner
      refine ⟨node', rfl, ?_⟩
      rcases hLags.cases hWithin with
        rfl |
        ⟨_, _, _, _, _, rfl, rfl, hState, hChildren⟩
      · exact .refl _
      · exact
          ⟨hState, Nat.le_of_eq hChildren.length_eq⟩
  | cons index rest ih =>
      rcases hLags.cases hWithin with
        rfl |
        ⟨_, _, _, _, _, rfl, rfl, hState, hChildren⟩
      · exact ⟨inner, hInner, .refl inner⟩
      · rcases Option.bind_eq_some_iff.mp hInner with
          ⟨child, hChild, hRest⟩
        rcases getElem?_of_forall₂ hChildren index with
          ⟨hNone, _⟩ |
          ⟨other, child', hOther, hChild', hNext⟩
        · rw [hNone] at hChild
          cases hChild
        · rw [hOther] at hChild
          cases hChild
          simp only [find?, hChild', Option.bind_some]
          exact ih hNext hRest

end Lags

end Node

/- Every node of a group is further on after more time. -/
theorem Group.run_lags
    {κ σ : Type}
    {routine : κ → Routine σ}
    {plan longer : Plan}
    {g : Group κ}
    {w : World σ}
    {address : List Nat}
    {node : Node κ}
    (hWithin : plan.Within longer)
    (hNode :
      (g.run routine plan w).subject.root.find? address =
        some node) :
    ∃ node',
      (g.run routine longer w).subject.root.find? address =
          some node' ∧
        node.Precedes node' := by
  have hLags :
      (g.run routine plan w).subject.root.Lags routine plan
        longer (g.run routine longer w).subject.root :=
    .inr
      ⟨g.root, [], w, g.root_run_eq routine plan w,
        g.root_run_eq routine longer w⟩
  exact hLags.precedes hWithin hNode

end CommandScript
