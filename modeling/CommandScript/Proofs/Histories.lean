import CommandScript.Proofs.Callbacks
import CommandScript.Proofs.LaterDrops
import CommandScript.Proofs.Spots

/-
  Histories of a session. Whatever is done to groups, and in
  whatever order, no leaf is started twice: a run starts
  leaves only in groups that are idle, and all that is in a
  group is spent from then on.

  Key definitions include:
    * `Session.runs?`
    * `Session.starts`
    * `Session.startCount`
    * `Session.followAll`
    * `GroupState.refusal?`

  Main statements:
    * `Session.run_of_mem_starts`
    * `Session.isSpent_of_mem_starts`
    * `Session.startCount_of_isSpent`
    * `Session.startCount_le_one`
    * `Session.precedes_history`
    * `Session.history_runs_once`
-/

namespace CommandScript

------------------------------------------------------------
-- Starts in a Session
------------------------------------------------------------

/- Why a group in a state refuses to run, if it does. -/
def GroupState.refusal? : GroupState → Option CommandError
| .idle => none
| .running _ => some .alreadyStarted
| .completed => some .alreadyCompleted

/- The group that an action puts a child into. -/
def Action.target?
    {κ σ : Type} : Action κ σ → Option String
| .push id _ _ | .construct id _ _ | .nest id _ _ => some id
| _ => none

namespace Session

variable {κ σ : Type}

/- The group that an action runs, and the plan of the run. -/
def runs?
    (s : Session κ σ) : Action κ σ → Option (String × Plan)
| .run id cancelAfter dropAfter
| .runThen id _ cancelAfter dropAfter =>
    some (id, s.plan cancelAfter dropAfter)
| _ => none

/- The spots of the leaves that an action starts. -/
def starts
    (routine : κ → Routine σ)
    (s : Session κ σ)
    (action : Action κ σ) : List Spot :=
  match s.runs? action with
  | none => []
  | some (id, plan) =>
      match s.groups.get? id with
      | none => []
      | some g =>
          (g.starts routine plan s.world).map
            fun address => ⟨id, address⟩

/-
  How often the leaf at a spot is started by actions, in
  the spots that it goes to.
-/
def startCount
    (routine : κ → Routine σ)
    (s : Session κ σ) : List (Action κ σ) → Spot → Nat
| [], _ => 0
| action :: rest, spot =>
    (s.starts routine action).count spot +
      match s.follow action spot with
      | none => 0
      | some later =>
          (s.perform routine action).1.startCount routine
            rest later

/- Where the node at a spot is after actions. -/
def followAll
    (routine : κ → Routine σ)
    (s : Session κ σ) :
    List (Action κ σ) → Spot → Option Spot
| [], spot => some spot
| action :: rest, spot =>
    (s.follow action spot).bind
      ((s.perform routine action).1.followAll routine rest)

section Starts

variable {routine : κ → Routine σ}
variable {s : Session κ σ}
variable {action : Action κ σ}
variable {spot : Spot}

/- What is started is in a group that the action runs. -/
theorem run_of_mem_starts
    (hStart : spot ∈ s.starts routine action) :
    ∃ g plan,
      s.groups.get? spot.id = some g ∧
        spot.address ∈ g.starts routine plan s.world ∧
        s.follow action spot = some spot ∧
        (s.perform routine action).1.groups =
          s.groups.insert spot.id
            (g.run routine plan s.world).subject := by
  unfold starts at hStart
  split at hStart
  · cases hStart
  · rename_i id plan hRuns
    split at hStart
    · cases hStart
    · rename_i g hGroup
      rcases List.mem_map.mp hStart with
        ⟨address, hAddress, rfl⟩
      refine ⟨g, plan, hGroup, hAddress, ?_⟩
      cases action with
      | run id' cancelAfter dropAfter =>
          cases hRuns
          rw [run_of_get? hGroup]
          exact ⟨rfl, rfl⟩
      | runThen id' onComplete cancelAfter dropAfter =>
          cases hRuns
          rw [runThen_of_get? hGroup]
          exact ⟨rfl, rfl⟩
      | create _ | parse _ _ _ | inspect _ | push _ _ _
      | construct _ _ _ | nest _ _ _ | register _ _
      | cancel | await _ | alter _ => cases hRuns

/- No leaf is started twice by one action. -/
theorem nodup_starts
    (routine : κ → Routine σ)
    (s : Session κ σ)
    (action : Action κ σ) :
    (s.starts routine action).Nodup := by
  unfold starts
  split
  · exact List.nodup_nil
  · rename_i id plan _
    split
    · exact List.nodup_nil
    · rename_i g _
      have hStarts := g.nodup_starts routine plan s.world
      apply List.Pairwise.map _ _ hStarts
      intro address address' hDistinct hEqual
      cases hEqual
      exact hDistinct rfl

/- Only spots that are not spent are started. -/
theorem not_isSpent_of_mem_starts
    (hStart : spot ∈ s.starts routine action) :
    ¬ spot.IsSpent s.groups := by
  intro hSpent
  rcases run_of_mem_starts hStart with
    ⟨g, _, hGroup, hAddress, _⟩
  rcases Group.leaf_of_mem_starts hAddress with
    ⟨_, _, _, hNot⟩
  exact hNot (hSpent g hGroup)

/- A spot that is started stays, and is spent. -/
theorem isSpent_of_mem_starts
    (hStart : spot ∈ s.starts routine action) :
    s.follow action spot = some spot ∧
      spot.IsSpent
        (s.perform routine action).1.groups := by
  rcases run_of_mem_starts hStart with
    ⟨g, plan, hGroup, hAddress, hFollow, hRun⟩
  rcases Group.leaf_of_mem_starts hAddress with
    ⟨hIdle, hBelow, _, _⟩
  refine ⟨hFollow, ?_⟩
  rw [hRun]
  apply Spot.isSpent_of_get?
    (s.groups.get?_insert_self _ _)
  cases hIndices : spot.address with
  | nil => exact absurd hIndices hBelow
  | cons index rest =>
      rw [Group.run_of_idle _ _ _ hIdle]
      exact .inl (Node.runFrom_cases _ _ _ _ _ _).1

/- Nothing is started at a spent spot ever again. -/
theorem startCount_of_isSpent
    (routine : κ → Routine σ)
    (hSpent : spot.IsSpent s.groups)
    (actions : List (Action κ σ)) :
    s.startCount routine actions spot = 0 := by
  induction actions generalizing s spot with
  | nil => rfl
  | cons action rest ih =>
      have hNone :
          (s.starts routine action).count spot = 0 := by
        apply List.count_eq_zero.mpr
        intro hStart
        exact not_isSpent_of_mem_starts hStart hSpent
      rw [startCount, hNone]
      cases hFollow : s.follow action spot with
      | none => rfl
      | some later =>
          have hChange := s.perform_change routine action
          have hMoves := hChange.moves hFollow
          simp only [Nat.zero_add]
          exact ih (hMoves.isSpent hSpent)

/- Nothing is started twice in a history. -/
theorem startCount_le_one
    (routine : κ → Routine σ)
    (s : Session κ σ)
    (actions : List (Action κ σ))
    (spot : Spot) :
    s.startCount routine actions spot ≤ 1 := by
  induction actions generalizing s spot with
  | nil => exact Nat.zero_le 1
  | cons action rest ih =>
      rw [startCount]
      by_cases hStart : spot ∈ s.starts routine action
      · rcases isSpent_of_mem_starts hStart with
          ⟨hFollow, hSpent⟩
        have hOnce :=
          (s.nodup_starts routine action).count
            (a := spot)
        have hNever :=
          startCount_of_isSpent routine hSpent rest
        rw [if_pos hStart] at hOnce
        simp only [hFollow]
        omega
      · rw [List.count_eq_zero.mpr hStart]
        cases hFollow : s.follow action spot with
        | none => simp
        | some later =>
            have hRest :=
              ih (s.perform routine action).1 later
            simp only [Nat.zero_add]
            exact hRest

end Starts

------------------------------------------------------------
-- Nodes in a History
------------------------------------------------------------

section Nodes

variable {routine : κ → Routine σ}
variable {s : Session κ σ}
variable {actions : List (Action κ σ)}
variable {spot later : Spot}
variable {node : Node κ}

/- The node at a spot moves on in its states. -/
theorem precedes_history
    (hNode : spot.node? s.groups = some node)
    (hFollow :
      s.followAll routine actions spot = some later) :
    ∃ node',
      later.node? (s.history routine actions).groups =
          some node' ∧
        node.Precedes node' := by
  induction actions generalizing s spot node with
  | nil =>
      cases hFollow
      exact ⟨node, hNode, .refl node⟩
  | cons action rest ih =>
      rcases Option.bind_eq_some_iff.mp hFollow with
        ⟨next, hNext, hRest⟩
      have hChange := s.perform_change routine action
      rcases (hChange.moves hNext).precedes hNode with
        ⟨middle, hMiddle, hFirst⟩
      rcases ih hMiddle hRest with
        ⟨node', hNode', hSecond⟩
      exact ⟨node', hNode', hFirst.trans hSecond⟩

/- What is at a spent spot stays as it is. -/
theorem node?_history_of_isSpent
    (hSpent : spot.IsSpent s.groups)
    (hNode : spot.node? s.groups = some node)
    (hFollow :
      s.followAll routine actions spot = some later) :
    later.node? (s.history routine actions).groups =
      some node := by
  induction actions generalizing s spot with
  | nil =>
      cases hFollow
      exact hNode
  | cons action rest ih =>
      rcases Option.bind_eq_some_iff.mp hFollow with
        ⟨next, hNext, hRest⟩
      have hMoves :=
        (s.perform_change routine action).moves hNext
      exact
        ih (hMoves.isSpent hSpent)
          (hMoves.node?_of_isSpent hSpent hNode) hRest

/- Groups go on running at their children. -/
theorem isBounded_history
    (routine : κ → Routine σ)
    (hBounded :
      ∀ id g, s.groups.get? id = some g →
        g.root.IsBounded)
    (actions : List (Action κ σ)) :
    ∀ id g,
      (s.history routine actions).groups.get? id = some g →
        g.root.IsBounded := by
  refine
    Steps.after_keeps
      (P := fun s : Session κ σ =>
        ∀ id g, s.groups.get? id = some g →
          g.root.IsBounded)
      ?_ hBounded
  intro action _ s hBefore
  exact (s.perform_change routine action).isBounded hBefore

end Nodes

------------------------------------------------------------
-- Late Children
------------------------------------------------------------

/- A child of a group that has been run is spent. -/
theorem isSpent_of_target?
    (routine : κ → Routine σ)
    {s : Session κ σ}
    {action : Action κ σ}
    {id : String}
    {g : Group κ}
    (hTarget : action.target? = some id)
    (hGroup : s.groups.get? id = some g)
    (hState : g.state ≠ .idle)
    (index : Nat)
    (rest : List Nat) :
    Spot.IsSpent ⟨id, index :: rest⟩
      (s.perform routine action).1.groups := by
  have hSpent :
      Spot.IsSpent ⟨id, index :: rest⟩ s.groups :=
    Spot.isSpent_of_get? hGroup (.inl hState)
  have hChange := s.perform_change routine action
  cases action with
  | push id' location command =>
      exact (hChange.moves rfl).isSpent hSpent
  | construct id' location params =>
      exact (hChange.moves rfl).isSpent hSpent
  | nest id' child line =>
      cases hTarget
      by_cases hSame : id = child
      -- A group that is nested in itself is lost.
      · intro other hOther
        rw [← hSame] at hOther
        simp only [perform, nest, hGroup, push,
          s.groups.get?_erase_self] at hOther
        cases hOther
      · have hFollow :
            s.follow (.nest id child line)
                ⟨id, index :: rest⟩ =
              some ⟨id, index :: rest⟩ := by
          simp only [follow, Spot.outside,
            Spot.nestedIn, if_neg hSame]
          split <;> rfl
        exact (hChange.moves hFollow).isSpent hSpent
  | create _ | parse _ _ _ | inspect _ | run _ _ _
  | runThen _ _ _ _ | register _ _ | cancel | await _
  | alter _ => cases hTarget

------------------------------------------------------------
-- Refused Runs
------------------------------------------------------------

/- A run of a group that is not idle changes nothing. -/
theorem run_of_refusal?
    {routine : κ → Routine σ}
    {s : Session κ σ}
    {id : String}
    {g : Group κ}
    {cause : CommandError}
    {cancelAfter dropAfter : Option Nat}
    (hGroup : s.groups.get? id = some g)
    (hRefusal : g.state.refusal? = some cause) :
    s.perform routine (.run id cancelAfter dropAfter) =
        (s,
          .ran ⟨.finished (.failed cause), 0, g.state⟩) ∧
      s.starts routine (.run id cancelAfter dropAfter) =
        [] := by
  have hRun :
      g.run routine (s.plan cancelAfter dropAfter) s.world =
        .refused g cause s.world := by
    unfold Group.run
    cases hState : g.state with
    | idle =>
        rw [hState] at hRefusal
        cases hRefusal
    | running index =>
        rw [hState] at hRefusal
        cases hRefusal
        rfl
    | completed =>
        rw [hState] at hRefusal
        cases hRefusal
        rfl
  have hState : g.state ≠ .idle := by
    intro hIdle
    rw [hIdle] at hRefusal
    cases hRefusal
  constructor
  · rw [run_of_get? hGroup, hRun]
    rcases s with ⟨registry, groups, world, log⟩
    simp only [Passage.refused, put, logged, report,
      Dictionary.insert_of_get? hGroup, List.append_nil,
      Nat.sub_self]
  · simp only [starts, runs?, hGroup,
      g.starts_of_not_idle routine _ s.world hState,
      List.map_nil]

/- A nested group that is not idle refuses as well. -/
theorem node_run_of_refusal?
    {routine : κ → Routine σ}
    {plan : Plan}
    {path : List Location}
    {line : Nat}
    {state : GroupState}
    {children : List (Node κ)}
    {w : World σ}
    {cause : CommandError}
    (hRefusal : state.refusal? = some cause) :
    (Node.group line state children).run routine plan path
        w =
      .refused (.group line state children) cause w := by
  cases state with
  | idle => cases hRefusal
  | running index =>
      cases hRefusal
      simp only [Node.run]
  | completed =>
      cases hRefusal
      simp only [Node.run]

------------------------------------------------------------
-- Any History
------------------------------------------------------------

/-
  What holds in every history of a session, whatever is
  created, parsed, pushed, nested, run and dropped in it. A
  node is followed by its spot while it is there. A run is
  watched on leaves that carry their addresses, and that
  changes nothing.

  No leaf is started more than once; and a leaf that is
  there was there before, at one spot, or has just been
  brought in. States move forward, from action to action and
  in a run that goes on for longer. A group that is running
  is at one of its children. A run of a group that is not
  idle does nothing and takes no time, by itself or in
  another. What is put into such a group is never run. A run
  that ends calls back once, with its result, and one that
  is dropped never does; so the callbacks of a history get
  the results of its runs that end, in order.
-/
theorem history_runs_once
    (routine : κ → Routine σ) :
    (∀ (g : Group κ) plan w,
      (g.watched routine plan w).outcome.view
          Recorded.state =
        (g.run routine plan w).outcome) ∧
    (∀ (s : Session κ σ) actions spot,
      s.startCount routine actions spot ≤ 1) ∧
    (∀ (s : Session κ σ) action later location command,
      later.node? (s.perform routine action).1.groups =
          some (.leaf location command) →
        s.brings action later ∨
          ∃ spot,
            s.follow action spot = some later ∧
              spot.node? s.groups =
                some (.leaf location command)) ∧
    (∀ (s : Session κ σ) actions spot later node,
      spot.node? s.groups = some node →
        s.followAll routine actions spot = some later →
          ∃ node',
            later.node?
                  (s.history routine actions).groups =
                some node' ∧
              node.Precedes node') ∧
    (∀ (g : Group κ) plan longer w address node,
      plan.Within longer →
        (g.run routine plan w).subject.root.find? address =
            some node →
          ∃ node',
            (g.run routine longer w).subject.root.find?
                  address =
                some node' ∧
              node.Precedes node') ∧
    (∀ registry state actions spot line index children,
      Spot.node? spot
            ((start registry state).history routine
              actions).groups =
          some (.group line (.running index) children) →
        index < children.length) ∧
    (∀ (s : Session κ σ) id g cause cancelAfter dropAfter,
      s.groups.get? id = some g →
        g.state.refusal? = some cause →
          s.perform routine
                (.run id cancelAfter dropAfter) =
              (s,
                .ran
                  ⟨.finished (.failed cause), 0,
                    g.state⟩) ∧
            s.starts routine
                (.run id cancelAfter dropAfter) =
              []) ∧
    (∀ plan path line state (children : List (Node κ)) w
        cause,
      state.refusal? = some cause →
        (Node.group line state children).run routine plan
            path w =
          .refused (.group line state children) cause w) ∧
    (∀ (s : Session κ σ) action id g rest,
      action.target? = some id →
        s.groups.get? id = some g →
          g.state ≠ .idle →
            let after := (s.perform routine action).1
            let spot : Spot := ⟨id, g.size :: rest⟩
            (∀ actions,
              after.startCount routine actions spot =
                0) ∧
            ∀ actions later node,
              spot.node? after.groups = some node →
                after.followAll routine actions spot =
                    some later →
                  later.node?
                      (after.history routine
                        actions).groups =
                    some node) ∧
    (∀ (s : Session κ σ) id cancelAfter dropAfter report
        onComplete,
      let ran :=
        s.perform routine (.run id cancelAfter dropAfter)
      let called :=
        s.perform routine
          (.runThen id onComplete cancelAfter dropAfter)
      s.starts routine
            (.runThen id onComplete cancelAfter dropAfter) =
          s.starts routine
            (.run id cancelAfter dropAfter) ∧
        (ran.2 = .ran report →
          (∃ result,
            report.ending = .finished result ∧
              called =
                ( (ran.1.perform routine
                    (.alter (onComplete result))).1,
                  .ran report )) ∨
            (report.ending = .dropped ∧ dropAfter ≠ none ∧
              called = ran))) ∧
    (∀ (heard : σ → List CommandResult) (s : Session κ σ)
        actions,
      (∀ command plan w,
        heard
            ((routine command).run plan [] w).world.state =
          heard w.state) →
        (∀ action ∈ actions, action.Notes heard) →
          heard (s.history routine actions).world.state =
            heard s.world.state ++
              s.results routine actions) := by
  refine ⟨?_, ?_, ?_, ?_, ?_, ?_, ?_, ?_, ?_, ?_, ?_⟩
  · intro g plan w
    exact g.watched_outcome routine plan w
  · intro s actions spot
    exact s.startCount_le_one routine actions spot
  · intro s action later location command hLeaf
    exact (s.perform_change routine action).origin hLeaf
  · intro s actions spot later node hNode hFollow
    exact precedes_history hNode hFollow
  · intro g plan longer w address node hWithin hNode
    exact Group.run_lags hWithin hNode
  · intro registry state actions spot line index children
      hRunning
    have hStart :
        ∀ id g,
          (start registry state).groups.get? id = some g →
            g.root.IsBounded := by
      intro id g hGroup
      cases hGroup
    have hBounded :=
      isBounded_history routine hStart actions
    rcases Option.bind_eq_some_iff.mp hRunning with
      ⟨g, hGroup, hNode⟩
    exact hBounded spot.id g hGroup _ _ _ _ hNode
  · intro s id g cause cancelAfter dropAfter hGroup hRefusal
    exact run_of_refusal? hGroup hRefusal
  · intro plan path line state children w cause hRefusal
    exact node_run_of_refusal? hRefusal
  · intro s action id g rest hTarget hGroup hState
    have hSpent :=
      isSpent_of_target? routine hTarget hGroup hState
        g.size rest
    constructor
    · intro actions
      exact startCount_of_isSpent routine hSpent actions
    · intro actions later node hNode hFollow
      exact node?_history_of_isSpent hSpent hNode hFollow
  · intro s id cancelAfter dropAfter report onComplete ran
      called
    refine ⟨rfl, ?_⟩
    intro hAnswer
    exact runThen_of_ran hAnswer onComplete
  · intro heard s actions hCommands hActions
    exact history_notes hCommands hActions

/-
  A group of two commands is nested and run, and dropped in
  the second. Neither it nor a command that is put in late
  is started when the outer group is run again.
-/
example :
    let routine (length : Nat) : Routine Unit :=
      .sleep length false .succeed
    let s : Session Nat Unit :=
      (start Registry.empty ()).history routine
        [ .create "a",
          .push "a" ⟨"wait", 1⟩ 5,
          .push "a" ⟨"wait", 2⟩ 5,
          .create "b" ]
    let count :=
      s.startCount routine
        [ .nest "b" "a" 3,
          .run "b" none (some 7),
          .push "b" ⟨"wait", 4⟩ 5,
          .run "b" none none ]
    count ⟨"a", [0]⟩ = 1 ∧
      count ⟨"a", [1]⟩ = 1 ∧
        count ⟨"b", [1]⟩ = 0 := by
  with_unfolding_all exact ⟨rfl, rfl, rfl⟩

end Session

end CommandScript
