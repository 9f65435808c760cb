import CommandScript.Proofs.FirstFailure
import CommandScript.Proofs.Rows

/-
  How far a run of a tree reaches, and what it leaves
  behind. Nodes are found by their addresses, and addresses
  are in pre-order when compared as lists. The states of all
  groups after a run follow from the address that it has
  reached.

  Key definitions include:
    * `Leaf`
    * `Group.leaves`
    * `Group.withStates`
    * `Reach`
    * `Reach.states`
    * `Leaf.reach`

  Main statements:
    * `Node.addresses_pairwise`
    * `Reach.states_under_self`
    * `Node.runFrom_subject`
-/

namespace CommandScript

------------------------------------------------------------
-- Leaves
------------------------------------------------------------

/-
  A command of a tree and its address: the indices of the
  children that lead to it.
-/
structure Leaf (κ : Type) where
  address : List Nat
  location : Location
  command : κ
deriving DecidableEq, Repr

namespace Leaf

variable {κ : Type}

/- A leaf of a child as a leaf of the parent. -/
def under
    (index : Nat)
    (leaf : Leaf κ) : Leaf κ :=
  { leaf with address := index :: leaf.address }

/- The job of running a leaf. -/
def job (leaf : Leaf κ) : Job κ :=
  .perform leaf.location leaf.command

end Leaf

namespace Node

variable {κ : Type}

mutual

/- The leaves of a node in pre-order. -/
def leaves : Node κ → List (Leaf κ)
| .leaf location command => [⟨[], location, command⟩]
| .group _ _ children => leavesFrom 0 children

/- The leaves of children from an index on. -/
def leavesFrom (index : Nat) : List (Node κ) → List (Leaf κ)
| [] => []
| node :: rest =>
    node.leaves.map (Leaf.under index) ++
      leavesFrom (index + 1) rest

end

mutual

/- The addresses in and with a node, in pre-order. -/
def addresses : Node κ → List (List Nat)
| .leaf _ _ => [[]]
| .group _ _ children => [] :: addressesFrom 0 children

/- The addresses of children from an index on. -/
def addressesFrom
    (index : Nat) : List (Node κ) → List (List Nat)
| [] => []
| node :: rest =>
    node.addresses.map (index :: ·) ++
      addressesFrom (index + 1) rest

end

mutual

/- The leaves of a node are among the nodes in it. -/
theorem leaves_sublist
    (node : Node κ) :
    (node.leaves.map Leaf.address).Sublist
      node.addresses := by
  cases node with
  | leaf location command => simp [leaves, addresses]
  | group line state children =>
      simp only [leaves, addresses]
      exact (leavesFrom_sublist 0 children).cons []

theorem leavesFrom_sublist
    (index : Nat)
    (nodes : List (Node κ)) :
    ((leavesFrom index nodes).map Leaf.address).Sublist
      (addressesFrom index nodes) := by
  cases nodes with
  | nil => simp [leavesFrom, addressesFrom]
  | cons node rest =>
      have hNode := (leaves_sublist node).map (index :: ·)
      have hRest := leavesFrom_sublist (index + 1) rest
      simp only [leavesFrom, addressesFrom, List.map_append,
        List.map_map] at hNode hRest ⊢
      exact hNode.append hRest

end

/- The address of a node starts with that of a child. -/
theorem of_mem_addressesFrom
    {index : Nat}
    {nodes : List (Node κ)}
    {address : List Nat}
    (hAddress : address ∈ addressesFrom index nodes) :
    ∃ child rest,
      address = child :: rest ∧ index ≤ child := by
  induction nodes generalizing index with
  | nil => simp [addressesFrom] at hAddress
  | cons node nodes ih =>
      simp only [addressesFrom, List.mem_append] at hAddress
      rcases hAddress with hAddress | hAddress
      · rcases List.mem_map.mp hAddress with ⟨rest, _, rfl⟩
        exact ⟨index, rest, rfl, Nat.le_refl _⟩
      · rcases ih hAddress with ⟨child, rest, hEqual, hLe⟩
        exact ⟨child, rest, hEqual, by omega⟩

mutual

/- In pre-order the addresses of nodes grow. -/
theorem addresses_pairwise
    (node : Node κ) :
    node.addresses.Pairwise (· < ·) := by
  cases node with
  | leaf location command => simp [addresses]
  | group line state children =>
      simp only [addresses]
      apply List.pairwise_cons.mpr
      refine ⟨?_, addressesFrom_pairwise 0 children⟩
      intro address hAddress
      rcases of_mem_addressesFrom hAddress with
        ⟨child, rest, rfl, _⟩
      exact List.nil_lt_cons child rest

theorem addressesFrom_pairwise
    (index : Nat)
    (nodes : List (Node κ)) :
    (addressesFrom index nodes).Pairwise (· < ·) := by
  cases nodes with
  | nil => simp [addressesFrom]
  | cons node rest =>
      simp only [addressesFrom]
      apply List.pairwise_append.mpr
      refine
        ⟨?_, addressesFrom_pairwise (index + 1) rest, ?_⟩
      · apply List.pairwise_map.mpr
        refine (addresses_pairwise node).imp ?_
        intro early late hLess
        exact List.cons_lt_cons_iff.mpr (.inr ⟨rfl, hLess⟩)
      · intro early hEarly late hLate
        rcases List.mem_map.mp hEarly with ⟨inner, _, rfl⟩
        rcases of_mem_addressesFrom hLate with
          ⟨child, _, rfl, hLe⟩
        exact List.cons_lt_cons_iff.mpr (.inl hLe)

end

end Node

------------------------------------------------------------
-- Fresh Trees
------------------------------------------------------------

namespace Node

variable {κ : Type}

mutual

/- The jobs of a fresh node are its leaves. -/
theorem jobs_of_isFresh
    {node : Node κ}
    (hFresh : node.IsFresh) :
    node.jobs = node.leaves.map Leaf.job := by
  cases node with
  | leaf location command =>
      simp [jobs, leaves, Leaf.job]
  | group line state children =>
      rcases hFresh with ⟨rfl, hChildren⟩
      simp only [jobs, leaves]
      exact jobsOfAll_of_areFresh 0 hChildren

theorem jobsOfAll_of_areFresh
    (index : Nat)
    {nodes : List (Node κ)}
    (hFresh : AreFresh nodes) :
    jobsOfAll nodes =
      (leavesFrom index nodes).map Leaf.job := by
  cases nodes with
  | nil => rfl
  | cons node rest =>
      rcases hFresh with ⟨hNode, hRest⟩
      simp only [jobsOfAll, leavesFrom, List.map_append,
        List.map_map]
      rw [jobs_of_isFresh hNode,
        jobsOfAll_of_areFresh (index + 1) hRest]
      rfl

end

end Node

------------------------------------------------------------
-- States by Address
------------------------------------------------------------

namespace Node

variable {κ : Type}

mutual

/- A node, its groups in the states of their addresses. -/
def withStates
    (states : List Nat → GroupState) : Node κ → Node κ
| .leaf location command => .leaf location command
| .group line _ children =>
    .group line (states [])
      (withStatesFrom states 0 children)

/- The same for children from an index on. -/
def withStatesFrom
    (states : List Nat → GroupState)
    (index : Nat) : List (Node κ) → List (Node κ)
| [] => []
| node :: rest =>
    node.withStates (fun address =>
        states (index :: address)) ::
      withStatesFrom states (index + 1) rest

end

mutual

/- A fresh node is the one with idle groups only. -/
theorem withStates_of_isFresh
    {states : List Nat → GroupState}
    {node : Node κ}
    (hFresh : node.IsFresh)
    (hIdle : ∀ address, states address = .idle) :
    node.withStates states = node := by
  cases node with
  | leaf location command => simp only [withStates]
  | group line state children =>
      rcases hFresh with ⟨rfl, hChildren⟩
      simp only [withStates, hIdle]
      rw [withStatesFrom_of_areFresh 0 hChildren
        fun child _ address => hIdle (child :: address)]

theorem withStatesFrom_of_areFresh
    {states : List Nat → GroupState}
    (index : Nat)
    {nodes : List (Node κ)}
    (hFresh : AreFresh nodes)
    (hIdle :
      ∀ child, index ≤ child →
        ∀ address, states (child :: address) = .idle) :
    withStatesFrom states index nodes = nodes := by
  cases nodes with
  | nil => rfl
  | cons node rest =>
      rcases hFresh with ⟨hNode, hRest⟩
      simp only [withStatesFrom]
      rw [withStates_of_isFresh hNode
          (hIdle index (Nat.le_refl _)),
        withStatesFrom_of_areFresh (index + 1) hRest
          fun child hChild =>
            hIdle child (Nat.le_of_succ_le hChild)]

end

end Node

namespace Group

variable {κ : Type}

/- The leaves of a group in pre-order. -/
def leaves (g : Group κ) : List (Leaf κ) :=
  Node.leavesFrom 0 g.children

/- The addresses of a group and the nodes in it. -/
def addresses (g : Group κ) : List (List Nat) :=
  [] :: Node.addressesFrom 0 g.children

/- A group with the states that belong to addresses. -/
def withStates
    (states : List Nat → GroupState)
    (g : Group κ) : Group κ where
  state := states []
  children := Node.withStatesFrom states 0 g.children

end Group

------------------------------------------------------------
-- How Far a Run Reaches
------------------------------------------------------------

/-
  How far a run has reached: to the end, or to a leaf that
  has failed or in which the run was dropped.
-/
inductive Reach where
| atEnd
| failedAt (leaf : List Nat)
| droppedAt (leaf : List Nat)
deriving DecidableEq, Repr

namespace Reach

/-
  The states of the groups of a fresh tree after a run. The
  groups before the leaf are completed and those after it
  are idle. When the run was dropped the groups around the
  leaf are still running, each at the child that leads to
  the leaf.
-/
def states : Reach → List Nat → GroupState
| .atEnd, _ => .completed
| .failedAt leaf, group =>
    if group < leaf then .completed else .idle
| .droppedAt leaf, group =>
    if group.isPrefixOf leaf then
      .running (leaf.getD group.length 0)
    else if group < leaf then .completed
    else .idle

/- A run of a child as part of the run of the parent. -/
def under (index : Nat) : Reach → Reach
| .atEnd => .atEnd
| .failedAt leaf => .failedAt (index :: leaf)
| .droppedAt leaf => .droppedAt (index :: leaf)

/- The states in the child that is reached. -/
theorem states_under_self
    (reach : Reach)
    (index : Nat) :
    (fun address =>
        (reach.under index).states (index :: address)) =
      reach.states := by
  funext address
  cases reach with
  | atEnd => rfl
  | failedAt leaf => simp [under, states]
  | droppedAt leaf => simp [under, states]

/- The children before the one that is reached. -/
theorem states_under_of_lt
    (reach : Reach)
    {child index : Nat}
    (hBefore : child < index)
    (address : List Nat) :
    (reach.under index).states (child :: address) =
      .completed := by
  have hNe : (child == index) = false := by
    simp only [beq_eq_false_iff_ne]
    omega
  cases reach with
  | atEnd => rfl
  | failedAt leaf =>
      simp [under, states, List.cons_lt_cons_iff, hBefore]
  | droppedAt leaf =>
      simp [under, states, List.cons_lt_cons_iff,
        List.isPrefixOf_cons_cons, hBefore, hNe]

/- The children after the one that is reached. -/
theorem states_under_of_gt
    {reach : Reach}
    {child index : Nat}
    (hStops : reach ≠ .atEnd)
    (hAfter : index < child)
    (address : List Nat) :
    (reach.under index).states (child :: address) =
      .idle := by
  have hNe : (child == index) = false := by
    simp only [beq_eq_false_iff_ne]
    omega
  have hNotLess : ¬ child < index := by omega
  have hNotEqual : child ≠ index := by omega
  cases reach with
  | atEnd => exact absurd rfl hStops
  | failedAt leaf =>
      simp [under, states, List.cons_lt_cons_iff,
        hNotLess, hNotEqual]
  | droppedAt leaf =>
      simp [under, states, List.cons_lt_cons_iff,
        List.isPrefixOf_cons_cons, hNotLess, hNotEqual,
        hNe]

end Reach

/- How far a run has reached that ends so in a leaf. -/
def Ending.reach
    (leaf : List Nat) : Ending → Reach
| .finished .succeeded => .atEnd
| .finished (.failed _) => .failedAt leaf
| .dropped => .droppedAt leaf

namespace Ending

/- A location does not change how far a run reaches. -/
theorem reach_located
    (ending : Ending)
    (location : Location)
    (leaf : List Nat) :
    (ending.located location).reach leaf =
      ending.reach leaf := by
  cases ending with
  | dropped => rfl
  | finished result => cases result <;> rfl

/- A run that ends in a child ends there in the parent. -/
theorem reach_under
    (ending : Ending)
    (index : Nat)
    (leaf : List Nat) :
    ending.reach (index :: leaf) =
      (ending.reach leaf).under index := by
  cases ending with
  | dropped => rfl
  | finished result => cases result <;> rfl

/- Only a success reaches the end. -/
theorem reach_ne_atEnd
    {ending : Ending}
    (leaf : List Nat)
    (hStops : ending ≠ .finished .succeeded) :
    ending.reach leaf ≠ .atEnd := by
  cases ending with
  | dropped => simp [reach]
  | finished result =>
      cases result with
      | succeeded => exact absurd rfl hStops
      | failed cause => simp [reach]

end Ending

namespace Leaf

variable {κ σ : Type}

/- How far a run of leaves reaches, one after another. -/
def reach
    (routine : κ → Routine σ)
    (plan : Plan) :
    List (Leaf κ) → World σ → Reach
| [], _ => .atEnd
| leaf :: rest, w =>
    let o := leaf.job.run routine plan w
    match o.ending with
    | .finished .succeeded =>
        reach routine plan rest o.world
    | ending => ending.reach leaf.address

section Steps

variable {routine : κ → Routine σ} {plan : Plan}
variable {leaf : Leaf κ} {rest : List (Leaf κ)}
variable {w w' : World σ}

/- After a success the next leaves are run. -/
theorem reach_cons_of_succeeds
    (hRun :
      leaf.job.run routine plan w =
        ⟨.finished .succeeded, w'⟩) :
    reach routine plan (leaf :: rest) w =
      reach routine plan rest w' := by
  rw [reach, hRun]

/- A leaf that does not succeed is the last. -/
theorem reach_cons_of_stops
    (hStops :
      (leaf.job.run routine plan w).ending ≠
        .finished .succeeded) :
    reach routine plan (leaf :: rest) w =
      (leaf.job.run routine plan w).ending.reach
        leaf.address := by
  rw [reach]
  split
  · exact absurd ‹_› hStops
  · rfl

end Steps

variable (routine : κ → Routine σ) (plan : Plan)

/- The leaves of a child reach as far as they do alone. -/
theorem reach_under
    (index : Nat)
    (leaves : List (Leaf κ))
    (w : World σ) :
    reach routine plan (leaves.map (under index)) w =
      (reach routine plan leaves w).under index := by
  induction leaves generalizing w with
  | nil => rfl
  | cons leaf leaves ih =>
      have hJob : (leaf.under index).job = leaf.job := rfl
      rw [List.map_cons]
      rcases (leaf.job.run routine plan
          w).succeeds_or_stops with
        ⟨w', hRun⟩ | hStops
      · rw [reach_cons_of_succeeds hRun]
        rw [← hJob] at hRun
        rw [reach_cons_of_succeeds hRun]
        exact ih w'
      · rw [reach_cons_of_stops hStops]
        rw [← hJob] at hStops
        rw [reach_cons_of_stops hStops, hJob]
        exact Ending.reach_under _ index leaf.address

/- How leaves end shows how far they reach. -/
theorem reach_eq
    (leaves : List (Leaf κ))
    (w : World σ) :
    ∃ address,
      reach routine plan leaves w =
        (Job.runAll routine plan (leaves.map job)
          w).ending.reach address := by
  induction leaves generalizing w with
  | nil => exact ⟨[], rfl⟩
  | cons leaf leaves ih =>
      rw [List.map_cons]
      rcases (leaf.job.run routine plan
          w).succeeds_or_stops with
        ⟨w', hRun⟩ | hStops
      · rw [reach_cons_of_succeeds hRun,
          Job.runAll_cons_of_succeeds hRun]
        exact ih w'
      · rw [reach_cons_of_stops hStops,
          Job.runAll_cons_of_stops hStops]
        refine ⟨leaf.address, ?_⟩
        exact (Ending.reach_located _ _ _).symm

/- Later leaves are reached after a success only. -/
theorem reach_append
    (early late : List (Leaf κ))
    (w : World σ) :
    reach routine plan (early ++ late) w =
      match reach routine plan early w with
      | .atEnd =>
          reach routine plan late
            (Job.runAll routine plan (early.map job)
              w).world
      | reach => reach := by
  induction early generalizing w with
  | nil => rfl
  | cons leaf early ih =>
      rw [List.cons_append, List.map_cons]
      rcases (leaf.job.run routine plan
          w).succeeds_or_stops with
        ⟨w', hRun⟩ | hStops
      · rw [reach_cons_of_succeeds hRun,
          reach_cons_of_succeeds hRun,
          Job.runAll_cons_of_succeeds hRun]
        exact ih w'
      · rw [reach_cons_of_stops hStops,
          reach_cons_of_stops hStops]
        have hReach :=
          Ending.reach_ne_atEnd leaf.address hStops
        split
        · exact absurd ‹_› hReach
        · rfl

/- The address of a leaf is of no matter to its job. -/
theorem map_job_under
    (index : Nat)
    (leaves : List (Leaf κ)) :
    (leaves.map (under index)).map job =
      leaves.map job := by
  rw [List.map_map]
  rfl

/- Later children are reached after a success only. -/
theorem reach_leavesFrom_cons
    (index : Nat)
    (node : Node κ)
    (rest : List (Node κ))
    (w : World σ) :
    reach routine plan
        (Node.leavesFrom index (node :: rest)) w =
      match reach routine plan node.leaves w with
      | .atEnd =>
          reach routine plan
            (Node.leavesFrom (index + 1) rest)
            (Job.runAll routine plan
              (node.leaves.map job) w).world
      | reach => reach.under index := by
  simp only [Node.leavesFrom]
  rw [reach_append, reach_under, map_job_under]
  cases reach routine plan node.leaves w <;> rfl

/- A run of children reaches to one of them. -/
theorem reach_leavesFrom
    (index : Nat)
    (nodes : List (Node κ))
    (w : World σ) :
    ∃ (child : Nat) (inner : Reach),
      index ≤ child ∧
        reach routine plan (Node.leavesFrom index nodes) w =
          inner.under child := by
  induction nodes generalizing index w with
  | nil => exact ⟨index, .atEnd, Nat.le_refl _, rfl⟩
  | cons node nodes ih =>
      rw [reach_leavesFrom_cons]
      cases reach routine plan node.leaves w with
      | atEnd =>
          rcases ih (index + 1) _ with
            ⟨child, inner, hLe, hReach⟩
          exact ⟨child, inner, by omega, hReach⟩
      | failedAt leaf =>
          exact
            ⟨index, .failedAt leaf, Nat.le_refl _, rfl⟩
      | droppedAt leaf =>
          exact
            ⟨index, .droppedAt leaf, Nat.le_refl _, rfl⟩

end Leaf

------------------------------------------------------------
-- The States after a Run
------------------------------------------------------------

namespace Node

variable {κ σ : Type}
variable (routine : κ → Routine σ) (plan : Plan)

/- A fresh node ends as far as its leaves reach. -/
theorem run_reach
    (path : List Location)
    {node : Node κ}
    (hFresh : node.IsFresh)
    (w : World σ) :
    let p := node.run routine plan path w
    (Job.runAll routine plan (node.leaves.map Leaf.job)
          w).world = p.world ∧
      ∃ address,
        Leaf.reach routine plan node.leaves w =
          p.ending.reach address := by
  have hOutcome := run_outcome routine plan path node w
  rw [jobs_of_isFresh hFresh] at hOutcome
  rcases Leaf.reach_eq routine plan node.leaves w with
    ⟨address, hReach⟩
  rw [← hOutcome] at hReach ⊢
  refine ⟨rfl, address, ?_⟩
  rw [hReach]
  exact Ending.reach_located _ _ _

section Children

variable {routine : κ → Routine σ} {plan : Plan}
variable {path : List Location} {index : Nat}
variable {node : Node κ} {rest : List (Node κ)}
variable {w : World σ}

/- After a success the next children are run. -/
theorem runFrom_cons_of_succeeds
    {p : Passage (Node κ) σ}
    (hRun :
      node.run routine plan (path ++ [node.location]) w = p)
    (hEnding : p.ending = .finished .succeeded) :
    let later :=
      runFrom routine plan path (index + 1) rest p.world
    (runFrom routine plan path index (node :: rest)
        w).subject =
      ⟨later.subject.state,
        p.subject :: later.subject.children⟩ := by
  simp only [runFrom, hRun, hEnding]

/- A child that does not succeed is the last. -/
theorem runFrom_cons_of_stops
    {p : Passage (Node κ) σ}
    (hRun :
      node.run routine plan (path ++ [node.location]) w = p)
    (hStops : p.ending ≠ .finished .succeeded)
    (address : List Nat) :
    let reach := (p.ending.reach address).under index
    (runFrom routine plan path index (node :: rest)
        w).subject =
      ⟨reach.states [], p.subject :: rest⟩ := by
  simp only [runFrom, hRun]
  rcases p with ⟨subject, ending, w', log⟩
  cases ending with
  | dropped =>
      simp [Ending.reach, Reach.under, Reach.states]
  | finished result =>
      cases result with
      | succeeded => exact absurd rfl hStops
      | failed cause =>
          simp [Ending.reach, Reach.under, Reach.states]

/- Children after the one that is reached stay fresh. -/
theorem withStatesFrom_of_stops
    {reach : Reach}
    (hFresh : AreFresh rest)
    (hStops : reach ≠ .atEnd) :
    withStatesFrom (reach.under index).states (index + 1)
      rest = rest := by
  apply withStatesFrom_of_areFresh _ hFresh
  intro later hLater address
  exact Reach.states_under_of_gt hStops hLater address

end Children

mutual

/- A fresh node is left in the states of the reach. -/
theorem run_subject
    (path : List Location)
    {node : Node κ}
    (hFresh : node.IsFresh)
    (w : World σ) :
    (node.run routine plan path w).subject =
      node.withStates
        (Leaf.reach routine plan node.leaves w).states := by
  cases node with
  | leaf location command =>
      simp only [run, withStates]
  | group line state children =>
      rcases hFresh with ⟨rfl, hChildren⟩
      have hSubject :=
        runFrom_subject path 0 hChildren w
      simp only [run, Passage.map, withStates, leaves]
      rw [hSubject]

/- Fresh children are left in the states of the reach. -/
theorem runFrom_subject
    (path : List Location)
    (index : Nat)
    {nodes : List (Node κ)}
    (hFresh : AreFresh nodes)
    (w : World σ) :
    let reach :=
      Leaf.reach routine plan (leavesFrom index nodes) w
    (runFrom routine plan path index nodes w).subject =
      ⟨reach.states [],
        withStatesFrom reach.states index nodes⟩ := by
  cases nodes with
  | nil => simp only [runFrom]; rfl
  | cons node rest =>
      rcases hFresh with ⟨hNode, hRest⟩
      have hSubject :=
        run_subject (path ++ [node.location]) hNode w
      rcases run_reach routine plan
          (path ++ [node.location]) hNode w with
        ⟨hWorld, address, hReach⟩
      simp only [withStatesFrom]
      rw [Leaf.reach_leavesFrom_cons, hWorld]
      generalize hRun :
        node.run routine plan (path ++ [node.location]) w =
          p at hSubject hReach ⊢
      rw [hReach] at hSubject ⊢
      -- Only after a success is the reach in a later child.
      by_cases hEnding : p.ending = .finished .succeeded
      · have hLater :=
          runFrom_subject path (index + 1) hRest p.world
        rcases Leaf.reach_leavesFrom routine plan
            (index + 1) rest p.world with
          ⟨child, inner, hChild, hInner⟩
        have hBefore :
            (fun address =>
                (inner.under child).states
                  (index :: address)) =
              Reach.atEnd.states := by
          funext address
          exact
            inner.states_under_of_lt
              (Nat.lt_of_succ_le hChild) address
        rw [runFrom_cons_of_succeeds hRun hEnding, hLater,
          hInner, hEnding]
        rw [hEnding] at hSubject
        simp only [Ending.reach] at hSubject ⊢
        rw [hBefore, ← hSubject]
      · have hStops := Ending.reach_ne_atEnd address hEnding
        rw [runFrom_cons_of_stops hRun hEnding address]
        generalize p.ending.reach address = reach
          at hSubject hStops ⊢
        cases reach with
        | atEnd => exact absurd rfl hStops
        | failedAt leaf =>
            rw [Reach.states_under_self, ← hSubject,
              withStatesFrom_of_stops hRest hStops]
        | droppedAt leaf =>
            rw [Reach.states_under_self, ← hSubject,
              withStatesFrom_of_stops hRest hStops]

end

end Node

end CommandScript
