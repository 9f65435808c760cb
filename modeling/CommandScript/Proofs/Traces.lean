import CommandScript.Proofs.Brackets
import CommandScript.Proofs.Recording

/-
  The log of a run as a trace of the tree. All nodes are
  completed by a run that succeeds. A run that does not
  succeed stops in the leaf that it has started last. When
  the command of the leaf has failed, so do the groups
  around it, the innermost first.

  Key definitions include:
    * `Way.ends`
    * `Way.groups`
    * `Passage.bare`

  Main statements:
    * `Told.completes`
    * `Told.succeeds`
    * `Told.stops`
    * `Group.run_bare`
    * `Group.run_traces_tree`
-/

namespace CommandScript

------------------------------------------------------------
-- Successes
------------------------------------------------------------

/- No mark of a command is one of a failure. -/
theorem Mark.inner_not_failed
    {notices : List Notice}
    (way : Way)
    (hInner : ∀ notice ∈ notices, notice.isInner = true) :
    ∀ m ∈ notices.map (Mark.mk way),
      m.notice.isFailed = false := by
  intro m hMark
  rcases List.mem_map.mp hMark with ⟨notice, hNotice, rfl⟩
  have hInner := hInner notice hNotice
  cases notice <;> first | rfl | cases hInner

/- Only a success is noted as a completion. -/
theorem Ending.eq_succeeded_of_mem_notices
    {ending : Ending}
    (hNotice : .completed ∈ ending.notices) :
    ending = .finished .succeeded := by
  rcases ending with (_ | _) | _
  · rfl
  · simp [notices] at hNotice
  · simp [notices] at hNotice

namespace Told

variable {κ σ : Type}
variable {routine : κ → Routine σ} {plan : Plan}
variable {region : Region κ}
variable {w : World σ}
variable {o : Outcome σ}
variable {marks : List Mark}

/- In a run that succeeds every node is completed. -/
theorem completes
    (hTold : Told routine plan region w o marks)
    (hSucceeds : o.ending = .finished .succeeded) :
    ∀ way ∈ region.ways, ⟨way, .completed⟩ ∈ marks := by
  induction hTold with
  | leaf location command w hInner =>
      intro way hWay
      cases hWay
  | group line hChildren ih => exact ih hSucceeds
  | done index w =>
      intro way hWay
      cases hWay
  | next hNode hRest ihNode ihRest =>
      intro way hWay
      simp only [Region.ways, Node.waysFrom, List.mem_cons,
        List.mem_append, List.mem_map] at hWay
      rw [List.mem_append]
      rcases hWay with rfl | ⟨below, hBelow, rfl⟩ | hWay
      · exact .inl (by simp [Mark.around, Ending.notices])
      · have hMark := ihNode rfl below hBelow
        exact
          .inl
            (List.mem_cons_of_mem _
              (List.mem_append_left _
                (List.mem_map_of_mem hMark)))
      · exact .inr (ihRest hSucceeds way hWay)
  | stop index rest hNode hStops ihNode =>
      exact
        absurd hSucceeds (Outcome.located_stops _ hStops)

/- A run in which every node is completed succeeds. -/
theorem succeeds
    {index : Nat}
    {nodes : List (Node κ)}
    (hTold :
      Told routine plan (.along index nodes) w o marks)
    (hCompleted :
      ∀ way ∈ Node.waysFrom index nodes,
        ⟨way, .completed⟩ ∈ marks) :
    o.ending = .finished .succeeded := by
  generalize hRegion : Region.along index nodes = region
    at hTold
  induction hTold generalizing index nodes with
  | leaf location command w hInner => cases hRegion
  | group line hChildren ih => cases hRegion
  | done index w => rfl
  | @next index node rest w w' o inner later hNode hRest
      ihNode ihRest =>
      cases hRegion
      refine ihRest ?_ rfl
      intro way hWay
      have hMark : ⟨way, .completed⟩ ∈ _ ++ later :=
        hCompleted way
          (List.mem_cons_of_mem _
            (List.mem_append_right _ hWay))
      rcases List.mem_append.mp hMark with hMark | hMark
      · rcases Mark.exists_below_of_mem_around hMark with
          ⟨below, hBelow⟩
        have hApart :
            ¬ ⟨index, node.location⟩ :: below <+: way :=
          (Node.apart_of_mem_waysFrom below
            (Nat.lt_succ_self index) hWay).1
        rw [← hBelow] at hApart
        exact absurd List.prefix_rfl hApart
      · exact hMark
  -- The child that stops the run has not been completed.
  | @stop node w o inner index rest hNode hStops ihNode =>
      cases hRegion
      have hMark := hCompleted _ List.mem_cons_self
      simp only [Mark.around, List.mem_cons,
        List.mem_append, List.mem_map] at hMark
      rcases hMark with
        hMark | ⟨m, hInner, hMark⟩ | ⟨notice, hEnd, hMark⟩
      · cases hMark
      · have hWay := congrArg Mark.way hMark
        have hNotice := congrArg Mark.notice hMark
        have hIsInner :=
          hNode.isInner_of_way_eq_nil hInner
            (List.cons.inj hWay).2
        rw [Mark.under] at hNotice
        rw [hNotice] at hIsInner
        cases hIsInner
      · cases hMark
        exact
          absurd
            (Ending.eq_succeeded_of_mem_notices hEnd) hStops

/- No failure is noted in a child that succeeds. -/
theorem around_not_failed
    {inner : List Mark}
    (turn : Turn)
    (hInner : ∀ m ∈ inner, m.notice.isFailed = false) :
    ∀ m ∈ Mark.around turn inner (.finished .succeeded),
      m.notice.isFailed = false := by
  intro m hMark
  simp only [Mark.around, Ending.notices, List.mem_cons,
    List.mem_append, List.mem_map, List.map_cons,
    List.map_nil, List.not_mem_nil, or_false] at hMark
  rcases hMark with rfl | ⟨below, hBelow, rfl⟩ | rfl
  · rfl
  · exact hInner below hBelow
  · rfl

/- In a run that succeeds no node has failed. -/
theorem not_failed
    (hTold : Told routine plan region w o marks)
    (hSucceeds : o.ending = .finished .succeeded) :
    ∀ m ∈ marks, m.notice.isFailed = false := by
  induction hTold with
  | leaf location command w hInner =>
      exact Mark.inner_not_failed [] hInner
  | group line hChildren ih => exact ih hSucceeds
  | done index w =>
      intro m hMark
      cases hMark
  | next hNode hRest ihNode ihRest =>
      intro m hMark
      rcases List.mem_append.mp hMark with hMark | hMark
      · exact around_not_failed _ (ihNode rfl) m hMark
      · exact ihRest hSucceeds m hMark
  | stop index rest hNode hStops ihNode =>
      exact
        absurd hSucceeds (Outcome.located_stops _ hStops)

end Told

------------------------------------------------------------
-- Stops
------------------------------------------------------------

namespace Way

/-
  What is noted at the ends of the nodes on a way, the
  innermost first: the last node comes to an end of its own,
  and the groups around it to another.
-/
def ends
    (own final : Ending) : Way → List Mark
| [] => []
| turn :: rest =>
    (ends own final rest).map (Mark.under turn) ++
      (if rest = [] then own else final).notices.map
        (Mark.mk [turn])

/-
  The ways to the groups around the node at the end of a
  way, the innermost first.
-/
def groups : Way → List Way
| [] => []
| [_] => []
| turn :: next :: rest =>
    (groups (next :: rest)).map (turn :: ·) ++ [[turn]]

/- There is a group around a node for each turn but one. -/
theorem length_groups
    {way : Way}
    (hWay : way ≠ []) :
    way.groups.length + 1 = way.length := by
  induction way with
  | nil => exact absurd rfl hWay
  | cons turn rest ih =>
      cases rest with
      | nil => rfl
      | cons next rest =>
          have hRest := ih (by simp)
          simp only [groups, List.length_append,
            List.length_map, List.length_cons,
            List.length_nil] at hRest ⊢
          omega

/- When all nodes on a way fail, the groups do so alike. -/
theorem ends_of_failed
    {way : Way}
    (cause error : CommandError)
    (hWay : way ≠ []) :
    way.ends (.finished (.failed cause))
        (.finished (.failed error)) =
      ⟨way, .failed cause.message⟩ ::
        way.groups.map
          (Mark.mk · (.failed error.message)) := by
  induction way with
  | nil => exact absurd rfl hWay
  | cons turn rest ih =>
      cases rest with
      | nil => rfl
      | cons next rest =>
          rw [ends, ih (by simp)]
          simp [groups, Mark.under, Ending.notices,
            Function.comp_def]

end Way

/- The leaves that a run may come to. -/
def Region.leaves
    {κ : Type} : Region κ → List (Leaf κ)
| .inside node => node.leaves
| .along index nodes => Node.leavesFrom index nodes

/- A leaf that is a node itself has the location of it. -/
theorem Node.location_of_mem_leaves
    {κ : Type}
    {node : Node κ}
    {leaf : Leaf κ}
    (hLeaf : leaf ∈ node.leaves)
    (hAddress : leaf.address = []) :
    node.location = leaf.location := by
  cases node with
  | leaf location command =>
      rw [List.mem_singleton.mp hLeaf]
      rfl
  | group line state children =>
      have hMem :=
        (leavesFrom_sublist 0 children).subset
          (List.mem_map_of_mem hLeaf)
      rcases of_mem_addressesFrom hMem with
        ⟨child, rest, hChild, _⟩
      rw [hAddress] at hChild
      cases hChild

namespace Told

variable {κ σ : Type}
variable {routine : κ → Routine σ} {plan : Plan}
variable {region : Region κ}
variable {w : World σ}
variable {o : Outcome σ}
variable {marks : List Mark}

/-
  A run that does not succeed stops in the leaf that it has
  started last. What it comes to is what the leaf comes to;
  an error gets the location of the leaf on its way up. Last
  of all the nodes on the way to the leaf come to their end.
-/
theorem stops
    (hTold : Told routine plan region w o marks)
    (hStops : o.ending ≠ .finished .succeeded) :
    let way := Mark.last marks
    ∃ leaf ∈ region.leaves, ∃ w' ending before,
      leaf.address = way.address ∧
        leaf.job.run routine plan w' = ⟨ending, o.world⟩ ∧
        o.ending =
            (if way = [] then ending
              else ending.located leaf.location) ∧
        marks =
            before ++
              way.ends ending
                (ending.located leaf.location) ∧
        ∀ m ∈ before, m.notice.isFailed = false := by
  induction hTold with
  | @leaf notices location command w hInner =>
      have hLast :
          Mark.last (notices.map (Mark.mk [])) = [] := by
        unfold Mark.last
        rw [Mark.started_inner [] hInner]
        rfl
      simp only [hLast]
      refine
        ⟨⟨[], location, command⟩, List.mem_cons_self, w, _,
          notices.map (Mark.mk []), rfl, rfl, rfl, ?_,
          Mark.inner_not_failed [] hInner⟩
      simp [Way.ends]
  | group line hChildren ih => exact ih hStops
  | done index w => exact absurd rfl hStops
  | @next index node rest w w' o inner later hNode hRest
      ihNode ihRest =>
      rcases ihRest hStops with
        ⟨leaf, hLeaf, w', ending, before, hAddress, hRun,
          hEnding, hMarks, hBefore⟩
      have hLast :=
        Mark.last_append
          (Mark.around ⟨index, node.location⟩ inner
            (.finished .succeeded))
          (hRest.started_ne_nil hStops)
      simp only [hLast]
      refine
        ⟨leaf, List.mem_append_right _ hLeaf, w', ending,
          Mark.around ⟨index, node.location⟩ inner
              (.finished .succeeded) ++
            before,
          hAddress, hRun, hEnding, ?_, ?_⟩
      · rw [List.append_assoc, ← hMarks]
      · intro m hMark
        rcases List.mem_append.mp hMark with hMark | hMark
        · exact
            around_not_failed _ (hNode.not_failed rfl) m
              hMark
        · exact hBefore m hMark
  | @stop node w o inner index rest hNode hNodeStops
      ihNode =>
      rcases ihNode hNodeStops with
        ⟨leaf, hLeaf, w', ending, before, hAddress, hRun,
          hEnding, hMarks, hBefore⟩
      simp only [Mark.last_around]
      refine
        ⟨leaf.under index,
          List.mem_append_left _
            (List.mem_map_of_mem hLeaf),
          w', ending,
          ⟨[⟨index, node.location⟩], .starting⟩ ::
            before.map (Mark.under ⟨index, node.location⟩),
          ?_, hRun, ?_, ?_, ?_⟩
      · simp [Leaf.under, hAddress, Way.address]
      -- An error that comes from further down is located.
      · simp only [Outcome.located, reduceCtorEq, if_false]
        rw [hEnding]
        split
        · rename_i hWay
          rw [hWay] at hAddress
          rw [Node.location_of_mem_leaves hLeaf hAddress]
          rfl
        · exact Ending.located_located _ _ _
      · rw [hEnding]
        generalize Mark.last inner = way at hMarks ⊢
        rw [hMarks]
        simp [Mark.around, Way.ends, Leaf.under]
      · intro m hMark
        rcases List.mem_cons.mp hMark with rfl | hMark
        · rfl
        · rcases List.mem_map.mp hMark with
            ⟨below, hBelow, rfl⟩
          exact hBefore below hBelow

end Told

------------------------------------------------------------
-- Recorded Runs
------------------------------------------------------------

/- A run without its record. -/
def Passage.bare
    {τ κ σ : Type}
    (p : Passage τ (Recorded κ σ)) : Passage τ σ :=
  ⟨p.subject, p.ending, p.world.bare, p.log⟩

namespace Node

variable {κ σ : Type}
variable (routine : κ → Routine σ) (plan : Plan)

mutual

/- A record changes nothing that a run leaves or notes. -/
theorem run_bare
    (path : List Location)
    (node : Node κ)
    (w : World (Recorded κ σ)) :
    (node.run (recording routine) plan path w).bare =
      node.run routine plan path w.bare := by
  cases node with
  | leaf location command =>
      have hRun := recording_run routine command plan path w
      simp only [run, hRun]
      rfl
  | group line state children =>
      cases state with
      | running index => rfl
      | completed => rfl
      | idle =>
          have hChildren := runFrom_bare path 0 children w
          simp only [run, ← hChildren]
          rfl

theorem runFrom_bare
    (path : List Location)
    (index : Nat)
    (nodes : List (Node κ))
    (w : World (Recorded κ σ)) :
    (runFrom (recording routine) plan path index nodes
        w).bare =
      runFrom routine plan path index nodes w.bare := by
  cases nodes with
  | nil => rfl
  | cons node rest =>
      have hNode :=
        run_bare (path ++ [node.location]) node w
      simp only [runFrom, ← hNode]
      generalize
        node.run (recording routine) plan
          (path ++ [node.location]) w = p
      rcases p with ⟨subject, ending, w', log⟩
      cases ending with
      | dropped => rfl
      | finished result =>
          cases result with
          | failed cause => rfl
          | succeeded =>
              have hRest :=
                runFrom_bare path (index + 1) rest w'
              simp only [Passage.bare, ← hRest]

end

end Node

namespace Group

variable {κ σ : Type}

/- A record changes nothing that a run leaves or notes. -/
theorem run_bare
    (routine : κ → Routine σ)
    (plan : Plan)
    (g : Group κ)
    (w : World (Recorded κ σ)) :
    (g.run (recording routine) plan w).bare =
      g.run routine plan w.bare := by
  unfold run
  cases g.state with
  | running index => rfl
  | completed => rfl
  | idle =>
      exact
        Node.runFrom_bare routine plan [] 0 g.children w

end Group

section Recorded

variable {κ σ : Type}
variable {routine : κ → Routine σ} {plan : Plan}

/- The record of a leaf that is run ends with its course. -/
theorem Leaf.deeds_of_run
    {leaf : Leaf κ}
    {w : World (Recorded κ σ)}
    {o : Outcome (Recorded κ σ)}
    (hRun : leaf.job.run (recording routine) plan w = o) :
    ∃ early moment,
      o.world.state.course.map Event.deed =
        early ++ .started leaf.command ::
          (o.ending.closing leaf.command moment).map
            Event.deed := by
  have hCourse :=
    recording_course routine leaf.command plan [] w
  rw [← hRun]
  refine
    ⟨w.state.course.map Event.deed,
      (leaf.job.run (recording routine) plan
        w).world.clock, ?_⟩
  simp only [Leaf.job, Job.run, Trail.outcome, hCourse,
    List.map_append, List.map_cons]

/- A recorded run that is dropped is dropped in a leaf. -/
theorem Told.stops_dropped
    {index : Nat}
    {nodes : List (Node κ)}
    {w : World (Recorded κ σ)}
    {o : Outcome (Recorded κ σ)}
    {marks : List Mark}
    (hTold :
      Told (recording routine) plan (.along index nodes) w o
        marks)
    (hDropped : o.ending = .dropped) :
    ∃ leaf ∈ Node.leavesFrom index nodes, ∃ early,
      leaf.address = (Mark.last marks).address ∧
        o.world.state.course.map Event.deed =
          early ++ [.started leaf.command] := by
  rcases hTold.stops (by simp [hDropped]) with
    ⟨leaf, hLeaf, w', ending, before, hAddress, hRun,
      hEnding, hMarks, hBefore⟩
  rcases Leaf.deeds_of_run hRun with
    ⟨early, moment, hDeeds⟩
  have hOwn : ending = .dropped := by
    rw [hDropped] at hEnding
    split at hEnding
    · exact hEnding.symm
    · exact Ending.located_eq_dropped_iff.mp hEnding.symm
  subst hOwn
  exact ⟨leaf, hLeaf, early, hAddress, hDeeds⟩

/- A recorded run that fails fails with the last leaf. -/
theorem Told.stops_failed
    {index : Nat}
    {nodes : List (Node κ)}
    {w : World (Recorded κ σ)}
    {o : Outcome (Recorded κ σ)}
    {marks : List Mark}
    {error : CommandError}
    (hTold :
      Told (recording routine) plan (.along index nodes) w o
        marks)
    (hFailed : o.ending = .finished (.failed error)) :
    let way := Mark.last marks
    ∃ leaf ∈ Node.leavesFrom index nodes,
      ∃ cause early before,
        leaf.address = way.address ∧
        o.world.state.course.map Event.deed =
            early ++
              [ .started leaf.command,
                .ended leaf.command (.failed cause) ] ∧
        error = cause.located leaf.location ∧
        marks =
            before ++
              ⟨way, .failed cause.message⟩ ::
                way.groups.map
                  (Mark.mk · (.failed error.message)) ∧
        (∀ m ∈ before, m.notice.isFailed = false) ∧
        way.groups.length + 1 = leaf.address.length := by
  intro way
  have hStops : o.ending ≠ .finished .succeeded := by
    simp [hFailed]
  have hWay : way ≠ [] :=
    Region.ne_nil_of_mem_ways
      (hTold.mem_ways_of_mem_started
        (Mark.last_mem_started
          (hTold.started_ne_nil hStops)))
  rcases hTold.stops hStops with
    ⟨leaf, hLeaf, w', ending, before, hAddress, hRun,
      hEnding, hMarks, hBefore⟩
  rcases Leaf.deeds_of_run hRun with
    ⟨early, moment, hDeeds⟩
  rw [if_neg hWay, hFailed] at hEnding
  rcases ending with (_ | cause) | _
  · cases hEnding
  · have hError : error = cause.located leaf.location := by
      cases hEnding
      rfl
    rw [← hEnding, Way.ends_of_failed cause error hWay]
      at hMarks
    refine
      ⟨leaf, hLeaf, cause, early, before, hAddress, hDeeds,
        hError, hMarks, hBefore, ?_⟩
    rw [Way.length_groups hWay, hAddress]
    exact (List.length_map _).symm
  · cases hEnding

end Recorded

namespace Group

variable {κ σ : Type}

/-
  The log of a run of a group that is idle with all groups
  in it. The ways to the nodes of the tree are as many as
  the items that it is listed by, in the same order, and
  each leads to its item. Every entry of the log is noted at
  a node, and stands under the commands on the way to it.
  The nodes that are started are the first ones, in order,
  and nothing is noted at the others. Each of them has one
  start and one end, and what is noted in it stands between
  the two; only when the run is dropped, the node started
  last, which is a leaf, and the groups around it have no
  end. A run succeeds exactly if all nodes are completed. In
  one that fails the node started last is the leaf whose
  command has failed. The last marks are its failure, with
  the error of the command, and then the failures of the
  groups around it, the innermost first, with the error of
  the run; there are no other failures.
-/
theorem run_traces_tree
    (routine : κ → Routine σ)
    (plan : Plan)
    (g : Group κ)
    (w : World σ)
    (hFresh : g.IsFresh) :
    let p := g.run routine plan w
    let watched :=
      g.run (recording routine) plan w.unrecorded
    let deeds := watched.world.state.course.map Event.deed
    g.addresses = [] :: g.ways.map Way.address ∧
      List.Forall₂ Way.Leads g.ways g.listing ∧
      watched.bare = p ∧
      ∃ marks,
        p.log = marks.map (Mark.entry []) ∧
        Mark.started marks <+: g.ways ∧
        (∀ m ∈ marks, m.way ∈ Mark.started marks) ∧
        (∀ way ∈ Mark.started marks,
          Mark.Brackets p.ending marks way) ∧
        (p.ending = .finished .succeeded ↔
          ∀ way ∈ g.ways, ⟨way, .completed⟩ ∈ marks) ∧
        (p.ending = .dropped →
          ∃ leaf ∈ g.leaves, ∃ early,
            leaf.address = (Mark.last marks).address ∧
              deeds = early ++ [.started leaf.command]) ∧
        ∀ error, p.ending = .finished (.failed error) →
          ∃ leaf ∈ g.leaves, ∃ cause early before,
            let way := Mark.last marks
            leaf.address = way.address ∧
            deeds =
                early ++
                  [ .started leaf.command,
                    .ended leaf.command (.failed cause) ] ∧
            error = cause.located leaf.location ∧
            marks =
                before ++
                  ⟨way, .failed cause.message⟩ ::
                    way.groups.map
                      (Mark.mk ·
                        (.failed error.message)) ∧
            (∀ m ∈ before, m.notice.isFailed = false) ∧
            way.groups.length + 1 =
              leaf.address.length := by
  intro p watched deeds
  have hBare : watched.bare = p :=
    g.run_bare routine plan w.unrecorded
  rcases Node.runFrom_told (recording routine) plan [] 0
      hFresh.2 w.unrecorded with
    ⟨marks, hTold, hLog⟩
  rw [← run_of_idle (recording routine) plan w.unrecorded
    hFresh.1] at hTold hLog
  have hEnding : watched.ending = p.ending :=
    congrArg Passage.ending hBare
  have hPrefix := hTold.started_prefix
  have hBrackets := hTold.brackets
  refine
    ⟨g.addresses_eq_ways, g.ways_lead, hBare, marks, ?_,
      hPrefix.1, hTold.owns, ?_, ?_, ?_, ?_⟩
  · rw [← hLog]
    exact (congrArg Passage.log hBare).symm
  · rw [← hEnding]
    exact hBrackets
  · rw [← hEnding]
    exact ⟨hTold.completes, hTold.succeeds⟩
  · intro hDropped
    rw [← hEnding] at hDropped
    exact hTold.stops_dropped hDropped
  · intro error hFailed
    rw [← hEnding] at hFailed
    exact hTold.stops_failed hFailed

/- A leaf fails in the inner one of two nested groups. -/
theorem run_traces_tree_to_nested_failure :
    let routine
        (cause : Option CommandError) : Routine Unit :=
      match cause with
      | none => .succeed
      | some cause => .fail cause
    let error : CommandError :=
      .raisedAt ⟨"step", 4⟩ (.failed "no")
    let g : Group (Option CommandError) :=
      ⟨.idle,
        [ .leaf ⟨"step", 1⟩ none,
          .group 2 .idle
            [ .group 3 .idle
                [.leaf ⟨"step", 4⟩ (some (.failed "no"))],
              .leaf ⟨"step", 6⟩ none ] ]⟩
    let p := g.run routine .undisturbed (.initial ())
    g.IsFresh ∧
      p.ending = .finished (.failed error) ∧
      ∃ marks,
        p.log = marks.map (Mark.entry []) ∧
        Mark.started marks <+: g.ways ∧
        (∀ way ∈ Mark.started marks,
          Mark.Brackets p.ending marks way) ∧
        ∃ leaf ∈ g.leaves,
          ∃ (cause : CommandError) (before : List Mark),
          let way := Mark.last marks
          error = cause.located leaf.location ∧
            marks =
                before ++
                  ⟨way, .failed cause.message⟩ ::
                    way.groups.map
                      (Mark.mk ·
                        (.failed error.message)) ∧
            way.groups.length + 1 =
              leaf.address.length := by
  intro routine error g p
  have hFresh : g.IsFresh := by
    simp [g, IsFresh, Node.IsFresh, Node.AreFresh]
  have hFailed : p.ending = .finished (.failed error) := rfl
  rcases run_traces_tree routine .undisturbed g
      (.initial ()) hFresh with
    ⟨_, _, _, marks, hLog, hStarted, _, hBrackets, _, _,
      hFails⟩
  rcases hFails error hFailed with
    ⟨leaf, hLeaf, cause, _, before, _, _, hError, hMarks, _,
      hLength⟩
  exact
    ⟨hFresh, hFailed, marks, hLog, hStarted, hBrackets,
      leaf, hLeaf, cause, before, hError, hMarks, hLength⟩

end Group

end CommandScript
