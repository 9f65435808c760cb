import CommandScript.Proofs.Positions
import CommandScript.Proofs.States

/-
  Which leaves a run starts. A run is watched on the tree
  whose commands carry their addresses, so that the record
  names the leaves. A run starts leaves only whose addresses
  are not spent, and each of them once.

  Key definitions include:
    * `Node.addressed`
    * `Group.watched`
    * `Group.starts`

  Main statements:
    * `Group.watched_outcome`
    * `Group.nodup_starts`
    * `Group.leaf_of_mem_starts`
-/

namespace CommandScript

------------------------------------------------------------
-- Commands with Their Addresses
------------------------------------------------------------

namespace Node

variable {κ : Type}

mutual

/- A node whose commands carry their addresses. -/
def addressed
    (address : List Nat) : Node κ → Node (Leaf κ)
| .leaf location command =>
    .leaf location ⟨address, location, command⟩
| .group line state children =>
    .group line state (addressedFrom address 0 children)

/- The same for children from an index on. -/
def addressedFrom
    (address : List Nat)
    (index : Nat) : List (Node κ) → List (Node (Leaf κ))
| [] => []
| node :: rest =>
    node.addressed (address ++ [index]) ::
      addressedFrom address (index + 1) rest

end

end Node

namespace Leaf

variable {κ : Type}

/- A leaf of a node as one of a node around it. -/
def within
    (outer : List Nat)
    (leaf : Leaf κ) : Leaf κ :=
  { leaf with address := outer ++ leaf.address }

theorem within_nil
    (leaves : List (Leaf κ)) :
    leaves.map (within []) = leaves :=
  List.map_id leaves

/- A leaf of a child is one of the node around both. -/
theorem within_under
    (outer : List Nat)
    (index : Nat)
    (leaves : List (Leaf κ)) :
    leaves.map (within (outer ++ [index])) =
      (leaves.map (under index)).map (within outer) := by
  rw [List.map_map]
  apply List.map_congr_left
  intro leaf _
  simp [within, under]

end Leaf

namespace Job

variable {κ κ' : Type}

/- The same job for another command. -/
def map (change : κ → κ') : Job κ → Job κ'
| .perform location command =>
    .perform location (change command)
| .refuse line cause => .refuse line cause

/- The command that a job performs. -/
def command? : Job κ → Option κ
| .perform _ command => some command
| .refuse _ _ => none

end Job

namespace Node

variable {κ : Type}

mutual

/- The jobs are the same, but for the addresses. -/
theorem jobs_addressed
    (address : List Nat)
    (node : Node κ) :
    (node.addressed address).jobs.map
        (Job.map Leaf.command) =
      node.jobs := by
  cases node with
  | leaf location command =>
      simp [addressed, jobs, Job.map]
  | group line state children =>
      cases state with
      | idle =>
          simp only [addressed, jobs]
          exact jobsOfAll_addressed address 0 children
      | running index => simp [addressed, jobs, Job.map]
      | completed => simp [addressed, jobs, Job.map]

theorem jobsOfAll_addressed
    (address : List Nat)
    (index : Nat)
    (nodes : List (Node κ)) :
    (jobsOfAll (addressedFrom address index nodes)).map
        (Job.map Leaf.command) =
      jobsOfAll nodes := by
  cases nodes with
  | nil => rfl
  | cons node rest =>
      simp only [addressedFrom, jobsOfAll, List.map_append]
      rw [jobs_addressed (address ++ [index]) node,
        jobsOfAll_addressed address (index + 1) rest]

end

mutual

/- The leaves that are performed are some of all. -/
theorem performed_sublist
    (address : List Nat)
    (node : Node κ) :
    ((node.addressed address).jobs.filterMap
        Job.command?).Sublist
      (node.leaves.map (Leaf.within address)) := by
  cases node with
  | leaf location command =>
      simp [addressed, jobs, leaves, Job.command?,
        Leaf.within]
  | group line state children =>
      cases state with
      | idle =>
          simp only [addressed, jobs, leaves]
          exact performedOfAll_sublist address 0 children
      | running index =>
          simp only [addressed, jobs]
          exact List.nil_sublist _
      | completed =>
          simp only [addressed, jobs]
          exact List.nil_sublist _

theorem performedOfAll_sublist
    (address : List Nat)
    (index : Nat)
    (nodes : List (Node κ)) :
    ((jobsOfAll
          (addressedFrom address index nodes)).filterMap
        Job.command?).Sublist
      ((leavesFrom index nodes).map
        (Leaf.within address)) := by
  cases nodes with
  | nil => simp [addressedFrom, jobsOfAll, leavesFrom]
  | cons node rest =>
      have hNode :=
        performed_sublist (address ++ [index]) node
      have hRest :=
        performedOfAll_sublist address (index + 1) rest
      rw [Leaf.within_under] at hNode
      simp only [addressedFrom, jobsOfAll, leavesFrom,
        List.filterMap_append, List.map_append]
      exact hNode.append hRest

end

mutual

/- A leaf that is performed is at its own address. -/
theorem leaf_of_performed
    (address : List Nat)
    {node : Node κ}
    {leaf : Leaf κ}
    (hMem :
      leaf ∈
        (node.addressed address).jobs.filterMap
          Job.command?) :
    ∃ inner,
      leaf.address = address ++ inner ∧
        node.find? inner =
          some (.leaf leaf.location leaf.command) ∧
        ¬ node.IsSpent inner := by
  cases node with
  | leaf location command =>
      simp [addressed, jobs, Job.command?] at hMem
      rw [hMem]
      exact
        ⟨[], (List.append_nil _).symm, rfl, fun h => h⟩
  | group line state children =>
      cases state with
      | running index =>
          simp [addressed, jobs, Job.command?] at hMem
      | completed =>
          simp [addressed, jobs, Job.command?] at hMem
      | idle =>
          simp only [addressed, jobs] at hMem
          rcases leaf_of_performedOfAll address 0 hMem with
            ⟨index, child, inner, hAddress, hChild, hLeaf,
              hSpent⟩
          rw [Nat.zero_add] at hAddress
          refine ⟨index :: inner, hAddress, ?_, ?_⟩
          · simp only [find?, hChild, Option.bind_some]
            exact hLeaf
          · intro hOuter
            rcases hOuter with hState | ⟨other, hOther, hIn⟩
            · exact hState rfl
            · rw [hChild] at hOther
              cases hOther
              exact hSpent hIn

theorem leaf_of_performedOfAll
    (address : List Nat)
    (index : Nat)
    {nodes : List (Node κ)}
    {leaf : Leaf κ}
    (hMem :
      leaf ∈
        (jobsOfAll
            (addressedFrom address index nodes)).filterMap
          Job.command?) :
    ∃ offset child inner,
      leaf.address = address ++ (index + offset) :: inner ∧
        nodes[offset]? = some child ∧
        child.find? inner =
          some (.leaf leaf.location leaf.command) ∧
        ¬ child.IsSpent inner := by
  cases nodes with
  | nil => simp [addressedFrom, jobsOfAll] at hMem
  | cons node rest =>
      simp only [addressedFrom, jobsOfAll,
        List.filterMap_append, List.mem_append] at hMem
      rcases hMem with hMem | hMem
      · rcases leaf_of_performed (address ++ [index]) hMem
          with ⟨inner, hAddress, hLeaf, hSpent⟩
        refine ⟨0, node, inner, ?_, rfl, hLeaf, hSpent⟩
        rw [hAddress, List.append_assoc]
        rfl
      · rcases leaf_of_performedOfAll address (index + 1)
            hMem with
          ⟨offset, child, inner, hAddress, hChild, hLeaf,
            hSpent⟩
        refine
          ⟨offset + 1, child, inner, ?_, hChild, hLeaf,
            hSpent⟩
        rw [hAddress, Nat.add_assoc, Nat.add_comm 1]

end

end Node

------------------------------------------------------------
-- The Starts of a Course
------------------------------------------------------------

/- The command that starts with a deed. -/
def Deed.started? {κ σ : Type} : Deed κ σ → Option κ
| .started command => some command
| _ => none

section Courses

variable {κ σ : Type}
variable {routine : κ → Routine σ} {plan : Plan}

/- What is performed is started, one by one. -/
theorem Performance.started_course
    (done : List (Performance κ σ)) :
    (done.flatMap course).filterMap
        (fun event => event.deed.started?) =
      (done.map job).filterMap Job.command? := by
  induction done with
  | nil => rfl
  | cons p done ih =>
      rw [List.flatMap_cons, List.filterMap_append, ih]
      rfl

/- The first of the commands are started, in their order. -/
theorem WorkedOff.started_prefix
    {w : World σ}
    {done : List (Performance κ σ)}
    {jobs : List (Job κ)}
    {course : List (Event κ σ)}
    {o : Outcome σ}
    (hWorked :
      WorkedOff routine plan w done jobs course o) :
    course.filterMap (fun event => event.deed.started?) <+:
      jobs.filterMap Job.command? := by
  have hDone := Performance.started_course done
  cases hWorked with
  | completed hDone' hSuccess =>
      simp only [hDone, List.prefix_rfl]
  | @failed last cause rest hDone' hSuccess hLast hResult =>
      rw [List.filterMap_append, List.filterMap_append,
        hDone]
      apply (List.prefix_append_right_inj _).mpr
      exact ⟨rest.filterMap Job.command?, rfl⟩
  | refused line cause rest hDone' hSuccess =>
      rw [List.filterMap_append, hDone]
      exact List.prefix_append _ _
  | dropped location command rest hDone' hSuccess hDropped =>
      rw [List.filterMap_append, List.filterMap_append,
        hDone]
      apply (List.prefix_append_right_inj _).mpr
      exact ⟨rest.filterMap Job.command?, rfl⟩

end Courses

------------------------------------------------------------
-- The Starts of a Run
------------------------------------------------------------

namespace Group

variable {κ σ : Type}

/- A group whose commands carry their addresses. -/
def addressed (g : Group κ) : Group (Leaf κ) where
  state := g.state
  children := Node.addressedFrom [] 0 g.children

section Runs

variable (routine : κ → Routine σ) (plan : Plan)
variable (g : Group κ) (w : World σ)

/- A run of a group in which leaves are recorded. -/
def watched :
    Passage (Group (Leaf κ)) (Recorded (Leaf κ) σ) :=
  g.addressed.run
    (recording fun leaf => routine leaf.command) plan
    w.unrecorded

/- The addresses of the leaves that a run starts. -/
def starts : List (List Nat) :=
  let course :=
    (g.watched routine plan w).world.state.course
  (course.filterMap fun event => event.deed.started?).map
    Leaf.address

end Runs

/- Addresses change nothing that jobs come to. -/
theorem runAll_addressed
    (routine : κ → Routine σ)
    (plan : Plan)
    (jobs : List (Job (Leaf κ)))
    (w : World σ) :
    Job.runAll (fun leaf => routine leaf.command) plan jobs
        w =
      Job.runAll routine plan
        (jobs.map (Job.map Leaf.command)) w := by
  induction jobs generalizing w with
  | nil => rfl
  | cons job jobs ih =>
      have hNext := funext ih
      rw [List.map_cons, Job.runAll, Job.runAll, hNext]
      cases job with
      | perform location leaf => rfl
      | refuse line cause => rfl

section Runs

variable (routine : κ → Routine σ) (plan : Plan)
variable (g : Group κ) (w : World σ)

/- A run that is watched comes to what the run comes to. -/
theorem watched_outcome :
    (g.watched routine plan w).outcome.view
        Recorded.state =
      (g.run routine plan w).outcome := by
  by_cases hIdle : g.state = .idle
  · have hAddressed : g.addressed.state = .idle := hIdle
    have hJobs :
        g.addressed.jobs.map (Job.map Leaf.command) =
          g.jobs :=
      Node.jobsOfAll_addressed [] 0 g.children
    have hRecording :=
      run_recording (fun leaf => routine leaf.command) plan
        g.addressed w.unrecorded hAddressed
    have hRun :=
      run_outcome (fun leaf => routine leaf.command) plan w
        hAddressed
    rw [runAll_addressed, hJobs] at hRun
    rw [run_outcome routine plan w hIdle, ← hRun]
    exact hRecording
  · unfold watched run addressed
    cases hState : g.state with
    | idle => exact absurd hState hIdle
    | running index => rfl
    | completed => rfl

/- A group that is not idle starts nothing. -/
theorem starts_of_not_idle
    (hState : g.state ≠ .idle) :
    g.starts routine plan w = [] := by
  unfold starts watched run addressed
  cases hState' : g.state with
  | idle => exact absurd hState' hState
  | running index => rfl
  | completed => rfl

/- The first leaves that can be performed are started. -/
theorem starts_prefix
    (hIdle : g.state = .idle) :
    g.starts routine plan w <+:
      (g.addressed.jobs.filterMap Job.command?).map
        Leaf.address := by
  have hAddressed : g.addressed.state = .idle := hIdle
  rcases run_workedOff (fun leaf => routine leaf.command)
      plan g.addressed w hAddressed with
    ⟨done, hWorked⟩
  exact hWorked.started_prefix.map Leaf.address

/- No leaf is started twice in a run. -/
theorem nodup_starts :
    (g.starts routine plan w).Nodup := by
  by_cases hIdle : g.state = .idle
  · have hLeaves :=
      Node.performedOfAll_sublist [] 0 g.children
    rw [Leaf.within_nil] at hLeaves
    have hAddresses :=
      (hLeaves.map Leaf.address).trans g.leaves_sublist
    have hStarts :=
      (g.starts_prefix routine plan w hIdle).sublist
    have hGrow :=
      g.addresses_pairwise.sublist
        (hStarts.trans hAddresses)
    refine hGrow.imp ?_
    intro early late hLess hEqual
    rw [hEqual] at hLess
    exact List.lt_irrefl late hLess
  · rw [g.starts_of_not_idle routine plan w hIdle]
    exact List.nodup_nil

variable {routine plan g w}

/- What is started is a leaf at an address not spent. -/
theorem leaf_of_mem_starts
    {address : List Nat}
    (hStart : address ∈ g.starts routine plan w) :
    g.state = .idle ∧
      address ≠ [] ∧
      (∃ location command,
        g.root.find? address =
          some (.leaf location command)) ∧
      ¬ g.root.IsSpent address := by
  by_cases hIdle : g.state = .idle
  · have hPrefix := g.starts_prefix routine plan w hIdle
    rcases List.mem_map.mp (hPrefix.subset hStart) with
      ⟨leaf, hLeaf, rfl⟩
    have hMem :
        leaf ∈
          (g.root.addressed []).jobs.filterMap
            Job.command? := by
      simp only [root, toNode, hIdle, Node.addressed,
        Node.jobs]
      exact hLeaf
    rcases Node.leaf_of_performed [] hMem with
      ⟨inner, hAddress, hFind, hSpent⟩
    rw [List.nil_append] at hAddress
    rw [hAddress]
    refine ⟨hIdle, ?_, ⟨_, _, hFind⟩, hSpent⟩
    rintro rfl
    cases hFind
  · rw [g.starts_of_not_idle routine plan w hIdle] at hStart
    cases hStart

end Runs

end Group

end CommandScript
