import CommandScript.Proofs.Rows
import CommandScript.Tree.Run
import Mathlib.Data.List.Forall2
import Mathlib.Order.WithBot
import Mathlib.Order.Nat

/-
  Nodes by their addresses, and what a run makes of the node
  at an address. States only move forward, a group that has
  been run keeps all that is in it as it is, and an index at
  which a group is running is that of a child.

  Key definitions include:
    * `GroupState.rank`
    * `Node.find?`
    * `Node.IsSpent`
    * `Node.Precedes`
    * `Node.Becomes`
    * `Group.root`

  Main statements:
    * `Node.runFrom_cases`
    * `Node.Becomes.cases`
    * `Node.Becomes.find?`
    * `Node.Becomes.find?_of_isSpent`
    * `Group.of_find?_push`
    * `Group.root_run`
-/

namespace CommandScript

------------------------------------------------------------
-- The Order of States
------------------------------------------------------------

namespace GroupState

/- How far a state is from the start. -/
def rank : GroupState → WithTop Nat
| .idle => WithTop.some 0
| .running index => WithTop.some (index + 1)
| .completed => ⊤

/- A group goes through its states in this order. -/
instance : Preorder GroupState :=
  Preorder.lift rank

/- Every group starts idle. -/
theorem idle_le
    (state : GroupState) :
    idle ≤ state := by
  change rank idle ≤ rank state
  cases state with
  | idle => exact le_refl _
  | running index =>
      exact WithTop.coe_le_coe.mpr (Nat.zero_le _)
  | completed => exact le_top

/- A group that is at an index or beyond it. -/
theorem running_le
    {index : Nat}
    {state : GroupState}
    (hState : state ≠ .idle)
    (hIndex :
      ∀ reached, state = .running reached →
        index ≤ reached) :
    running index ≤ state := by
  change rank (running index) ≤ rank state
  cases state with
  | idle => exact absurd rfl hState
  | running reached =>
      have hLe := hIndex reached rfl
      exact WithTop.coe_le_coe.mpr (Nat.succ_le_succ hLe)
  | completed => exact le_top

/- A group is completed in the end. -/
theorem le_completed
    (state : GroupState) :
    state ≤ completed := by
  change rank state ≤ rank completed
  exact le_top

end GroupState

------------------------------------------------------------
-- Lists Side by Side
------------------------------------------------------------

/- Lists that are related have related members. -/
theorem getElem?_of_forall₂
    {α β : Type}
    {related : α → β → Prop}
    {left : List α}
    {right : List β}
    (hRelated : List.Forall₂ related left right)
    (index : Nat) :
    (left[index]? = none ∧ right[index]? = none) ∨
      ∃ a b,
        left[index]? = some a ∧
          right[index]? = some b ∧ related a b := by
  induction hRelated generalizing index with
  | nil => exact .inl ⟨rfl, rfl⟩
  | cons hHead hTail ih =>
      cases index with
      | zero => exact .inr ⟨_, _, rfl, rfl, hHead⟩
      | succ index => exact ih index

------------------------------------------------------------
-- Nodes by Address
------------------------------------------------------------

namespace Node

variable {κ : Type}

/- The node at an address. -/
def find? : List Nat → Node κ → Option (Node κ)
| [], node => some node
| _ :: _, .leaf _ _ => none
| index :: rest, .group _ _ children =>
    children[index]?.bind (find? rest)

/-
  An address is spent when a group above it is not idle: its
  run has begun, and no other run will get there.
-/
def IsSpent : List Nat → Node κ → Prop
| [], _ => False
| _ :: _, .leaf _ _ => False
| index :: rest, .group _ state children =>
    state ≠ .idle ∨
      ∃ child,
        children[index]? = some child ∧ child.IsSpent rest

/-
  What a node may be followed by: a leaf by itself, and a
  group by one whose state is the same or further on, and
  which has at least as many children.
-/
def Precedes : Node κ → Node κ → Prop
| .leaf location command, .leaf location' command' =>
    location = location' ∧ command = command'
| .group _ state children, .group _ state' children' =>
    state ≤ state' ∧ children.length ≤ children'.length
| _, _ => False

/- Every group that is running is at one of its children. -/
def IsBounded (node : Node κ) : Prop :=
  ∀ address line index children,
    node.find? address =
        some (.group line (.running index) children) →
      index < children.length

namespace Precedes

variable {node node' node'' : Node κ}

theorem refl (node : Node κ) : node.Precedes node := by
  cases node with
  | leaf location command => exact ⟨rfl, rfl⟩
  | group line state children =>
      exact ⟨le_refl state, Nat.le_refl _⟩

theorem trans
    (hFirst : node.Precedes node')
    (hSecond : node'.Precedes node'') :
    node.Precedes node'' := by
  cases node with
  | leaf location command =>
      cases node' with
      | group _ _ _ => exact hFirst.elim
      | leaf location' command' =>
          rcases hFirst with ⟨rfl, rfl⟩
          exact hSecond
  | group line state children =>
      cases node' with
      | leaf _ _ => exact hFirst.elim
      | group line' state' children' =>
          cases node'' with
          | leaf _ _ => exact hSecond.elim
          | group line'' state'' children'' =>
              exact
                ⟨le_trans hFirst.1 hSecond.1,
                  Nat.le_trans hFirst.2 hSecond.2⟩

end Precedes

/- Whether an address is spent does not depend on lines. -/
theorem isSpent_group
    (line line' : Nat)
    {state : GroupState}
    {children : List (Node κ)}
    {address : List Nat} :
    (group line state children).IsSpent address ↔
      (group line' state children).IsSpent address := by
  cases address <;> rfl

end Node

------------------------------------------------------------
-- What a Run Makes of a Node
------------------------------------------------------------

namespace Node

variable {κ σ : Type}

/-
  What can become of a node in a run of something around it:
  nothing, or what a run of the node itself leaves.
-/
def Becomes
    (routine : κ → Routine σ)
    (plan : Plan)
    (node node' : Node κ) : Prop :=
  node' = node ∨
    ∃ path w, node' = (node.run routine plan path w).subject

section Cases

variable {routine : κ → Routine σ} {plan : Plan}

/-
  A run of children leaves a group that is not idle, at an
  index among them if it is running, with a child for each.
-/
theorem runFrom_cases
    (routine : κ → Routine σ)
    (plan : Plan)
    (path : List Location)
    (index : Nat)
    (nodes : List (Node κ))
    (w : World σ) :
    let g := (runFrom routine plan path index nodes
      w).subject
    g.state ≠ .idle ∧
      (∀ reached, g.state = .running reached →
        index ≤ reached ∧ reached < index + nodes.length) ∧
      List.Forall₂ (Becomes routine plan) nodes
        g.children := by
  induction nodes generalizing index w with
  | nil => simp [runFrom]
  | cons node rest ih =>
      have hUnchanged :
          List.Forall₂ (Becomes routine plan) rest rest :=
        List.forall₂_same.mpr fun _ _ => .inl rfl
      have hHead :
          Becomes routine plan node
            (node.run routine plan (path ++ [node.location])
              w).subject :=
        .inr ⟨_, w, rfl⟩
      simp only [runFrom]
      generalize
        node.run routine plan (path ++ [node.location]) w =
          p at hHead ⊢
      rcases p with ⟨subject, ending, w', log⟩
      cases ending with
      | dropped =>
          refine ⟨by simp, ?_, .cons hHead hUnchanged⟩
          intro reached hRunning
          cases hRunning
          simp
      | finished result =>
          cases result with
          | failed cause =>
              exact
                ⟨by simp, by simp,
                  .cons hHead hUnchanged⟩
          | succeeded =>
              rcases ih (index + 1) w' with
                ⟨hState, hIndex, hRest⟩
              refine ⟨hState, ?_, .cons hHead hRest⟩
              intro reached hRunning
              rcases hIndex reached hRunning with ⟨hLow, hHigh⟩
              rw [List.length_cons]
              omega

/- Leaves stay as they are. -/
theorem Becomes.of_leaf
    {location : Location}
    {command : κ}
    {node' : Node κ}
    (hBecomes :
      (leaf location command).Becomes routine plan node') :
    node' = leaf location command := by
  rcases hBecomes with hSame | ⟨path, w, hRun⟩
  · exact hSame
  · simpa only [run] using hRun

/-
  Groups stay as they are, or they are idle and are run; and
  the children of a group are run if they do not stay as
  they are.
-/
theorem Becomes.cases
    {line : Nat}
    {state : GroupState}
    {children : List (Node κ)}
    {node' : Node κ}
    (hBecomes :
      (group line state children).Becomes routine plan
        node') :
    node' = group line state children ∨
      ∃ state' children',
        node' = group line state' children' ∧
          state = .idle ∧ state' ≠ .idle ∧
          (∀ index, state' = .running index →
            index < children.length) ∧
          List.Forall₂ (Becomes routine plan) children
            children' := by
  rcases hBecomes with hSame | ⟨path, w, hRun⟩
  · exact .inl hSame
  · cases state with
    | running index =>
        simp only [run] at hRun
        exact .inl hRun
    | completed =>
        simp only [run] at hRun
        exact .inl hRun
    | idle =>
        rcases runFrom_cases routine plan path 0 children
            w with
          ⟨hState, hIndex, hChildren⟩
        simp only [run] at hRun
        refine
          .inr ⟨_, _, hRun, rfl, hState, ?_, hChildren⟩
        intro index hRunning
        have hBounds := hIndex index hRunning
        omega

end Cases

namespace Becomes

variable {routine : κ → Routine σ} {plan : Plan}
variable {node node' : Node κ}

/- What becomes of a node comes after it. -/
theorem precedes
    (hBecomes : node.Becomes routine plan node') :
    node.Precedes node' := by
  cases node with
  | leaf location command =>
      rw [hBecomes.of_leaf]
      exact .refl _
  | group line state children =>
      rcases hBecomes.cases with
        rfl | ⟨_, _, rfl, rfl, _, _, hChildren⟩
      · exact .refl _
      · exact
          ⟨GroupState.idle_le _,
            Nat.le_of_eq hChildren.length_eq⟩

/- Nodes become what they do at every address. -/
theorem find?
    (hBecomes : node.Becomes routine plan node')
    (address : List Nat) :
    (node.find? address = none ∧
        node'.find? address = none) ∨
      ∃ inner inner',
        node.find? address = some inner ∧
          node'.find? address = some inner' ∧
            inner.Becomes routine plan inner' := by
  induction address generalizing node node' with
  | nil => exact .inr ⟨node, node', rfl, rfl, hBecomes⟩
  | cons index rest ih =>
      have hSame :
          node' = node →
            (node.find? (index :: rest) = none ∧
                node'.find? (index :: rest) = none) ∨
              ∃ inner inner',
                node.find? (index :: rest) = some inner ∧
                  node'.find? (index :: rest) =
                      some inner' ∧
                    inner.Becomes routine plan inner' := by
        rintro rfl
        cases hFind : node'.find? (index :: rest) with
        | none => exact .inl ⟨rfl, rfl⟩
        | some inner =>
            exact .inr ⟨inner, inner, rfl, rfl, .inl rfl⟩
      cases node with
      | leaf location command =>
          exact hSame hBecomes.of_leaf
      | group line state children =>
          rcases hBecomes.cases with
            hStays |
            ⟨state', children', rfl, _, _, _, hChildren⟩
          · exact hSame hStays
          · rcases getElem?_of_forall₂ hChildren index with
              ⟨hNone, hNone'⟩ |
              ⟨child, child', hChild, hChild', hRun⟩
            · exact
                .inl
                  ⟨by simp [Node.find?, hNone],
                    by simp [Node.find?, hNone']⟩
            · simp only [Node.find?, hChild, hChild',
                Option.bind_some]
              exact ih hRun

/- A leaf is there before a run that leaves it. -/
theorem leaf_of_find?
    {address : List Nat}
    {location : Location}
    {command : κ}
    (hBecomes : node.Becomes routine plan node')
    (hLeaf :
      node'.find? address = some (.leaf location command)) :
    node.find? address = some (.leaf location command) := by
  rcases hBecomes.find? address with
    ⟨_, hNone⟩ | ⟨inner, inner', hInner, hInner', hNext⟩
  · rw [hNone] at hLeaf
    cases hLeaf
  · rw [hInner'] at hLeaf
    cases hLeaf
    cases inner with
    | leaf location' command' =>
        rw [hNext.of_leaf]
        exact hInner
    | group line state children =>
        rcases hNext.cases with hSame | ⟨_, _, hSame, _⟩
        · cases hSame
        · cases hSame

/- Spent addresses stay spent. -/
theorem isSpent
    {address : List Nat}
    (hBecomes : node.Becomes routine plan node')
    (hSpent : node.IsSpent address) :
    node'.IsSpent address := by
  induction address generalizing node node' with
  | nil => exact hSpent.elim
  | cons index rest ih =>
      cases node with
      | leaf location command => exact hSpent.elim
      | group line state children =>
          rcases hBecomes.cases with
            rfl | ⟨_, _, rfl, _, hState, _, _⟩
          · exact hSpent
          · exact .inl hState

/- What is at a spent address stays as it is. -/
theorem find?_of_isSpent
    {address : List Nat}
    (hBecomes : node.Becomes routine plan node')
    (hSpent : node.IsSpent address) :
    node'.find? address = node.find? address := by
  induction address generalizing node node' with
  | nil => exact hSpent.elim
  | cons index rest ih =>
      cases node with
      | leaf location command => exact hSpent.elim
      | group line state children =>
          rcases hBecomes.cases with
            rfl | ⟨_, _, rfl, rfl, _, _, hChildren⟩
          · rfl
          · rcases hSpent with hState | ⟨child, hChild, hIn⟩
            · exact absurd rfl hState
            · rcases getElem?_of_forall₂ hChildren index
                with
                ⟨hNone, _⟩ |
                ⟨other, child', hOther, hChild', hRun⟩
              · rw [hNone] at hChild
                cases hChild
              · rw [hOther] at hChild
                cases hChild
                simp only [Node.find?, hOther, hChild',
                  Option.bind_some]
                exact ih hRun hIn

/- Groups go on running at their children. -/
theorem isBounded
    (hBecomes : node.Becomes routine plan node')
    (hBounded : node.IsBounded) :
    node'.IsBounded := by
  intro address line index children hGroup
  rcases hBecomes.find? address with
    ⟨_, hNone⟩ | ⟨inner, inner', hInner, hInner', hRun⟩
  · rw [hNone] at hGroup
    cases hGroup
  · rw [hInner'] at hGroup
    cases hGroup
    cases inner with
    | leaf location command => cases hRun.of_leaf
    | group line' state' children' =>
        rcases hRun.cases with
          hSame | ⟨_, _, hEqual, _, _, hIndex, hChildren⟩
        · cases hSame
          exact hBounded address _ _ _ hInner
        · cases hEqual
          rw [← hChildren.length_eq]
          exact hIndex index rfl

end Becomes

end Node

------------------------------------------------------------
-- Fresh Nodes
------------------------------------------------------------

namespace Node

variable {κ : Type}

/- Each of some fresh nodes is fresh. -/
theorem isFresh_of_mem
    {nodes : List (Node κ)}
    {node : Node κ}
    (hFresh : AreFresh nodes)
    (hMem : node ∈ nodes) :
    node.IsFresh := by
  induction nodes with
  | nil => cases hMem
  | cons head tail ih =>
      rcases List.mem_cons.mp hMem with rfl | hMem
      · exact hFresh.1
      · exact ih hFresh.2 hMem

/- Everything in a fresh node is fresh. -/
theorem isFresh_of_find?
    {node inner : Node κ}
    {address : List Nat}
    (hFresh : node.IsFresh)
    (hFind : node.find? address = some inner) :
    inner.IsFresh := by
  induction address generalizing node with
  | nil =>
      cases hFind
      exact hFresh
  | cons index rest ih =>
      cases node with
      | leaf location command => cases hFind
      | group line state children =>
          rcases Option.bind_eq_some_iff.mp hFind with
            ⟨child, hChild, hRest⟩
          have hMem := List.mem_of_getElem? hChild
          exact ih (isFresh_of_mem hFresh.2 hMem) hRest

/- No group in a fresh node is running. -/
theorem isBounded_of_isFresh
    {node : Node κ}
    (hFresh : node.IsFresh) :
    node.IsBounded := by
  intro address line index children hFind
  have hInner := isFresh_of_find? hFresh hFind
  cases hInner.1

end Node

------------------------------------------------------------
-- Groups as Nodes
------------------------------------------------------------

namespace Group

variable {κ σ : Type}

/- A group as a node, whatever line it may come to be on. -/
def root (g : Group κ) : Node κ :=
  g.toNode 0

section Pushed

variable {g : Group κ} {node inner : Node κ}
variable {index : Nat} {rest address : List Nat}

/- What is in a group stays there when it grows. -/
theorem find?_push
    (hInner : g.root.find? (index :: rest) = some inner) :
    (g.push node).root.find? (index :: rest) =
      some inner := by
  rcases Option.bind_eq_some_iff.mp hInner with
    ⟨child, hChild, hRest⟩
  rcases List.getElem?_eq_some_iff.mp hChild with
    ⟨hIndex, _⟩
  apply Option.bind_eq_some_iff.mpr
  refine ⟨child, ?_, hRest⟩
  rw [← hChild]
  exact List.getElem?_append_left hIndex

/- What is in a new child is found below it. -/
theorem find?_push_size :
    (g.push node).root.find? (g.size :: rest) =
      node.find? rest := by
  have hChild :
      (g.children ++ [node])[g.children.length]? =
        some node :=
    List.getElem?_concat_length
  unfold push root toNode size
  rw [Node.find?, hChild]
  rfl

/- A group that has grown holds what it held, and more. -/
theorem of_find?_push
    (hInner :
      (g.push node).root.find? (index :: rest) =
        some inner) :
    g.root.find? (index :: rest) = some inner ∨
      (index = g.size ∧ node.find? rest = some inner) := by
  by_cases hIndex : index < g.children.length
  · have hChild :
        (g.children ++ [node])[index]? =
          g.children[index]? :=
      List.getElem?_append_left hIndex
    refine .inl ?_
    unfold push root toNode at hInner
    rw [Node.find?, hChild] at hInner
    exact hInner
  · by_cases hLast : index = g.size
    · rw [hLast, find?_push_size] at hInner
      exact .inr ⟨hLast, hInner⟩
    · have hNone :
          (g.children ++ [node])[index]? = none := by
        unfold size at hLast
        apply List.getElem?_eq_none
        rw [List.length_append, List.length_singleton]
        omega
      unfold push root toNode at hInner
      rw [Node.find?, hNone] at hInner
      cases hInner

/- Spent addresses stay spent when a group grows. -/
theorem isSpent_push
    (hSpent : g.root.IsSpent address) :
    (g.push node).root.IsSpent address := by
  cases address with
  | nil => exact hSpent.elim
  | cons index rest =>
      rcases hSpent with hState | ⟨child, hChild, hIn⟩
      · exact .inl hState
      · rcases List.getElem?_eq_some_iff.mp hChild with
          ⟨hIndex, _⟩
        refine .inr ⟨child, ?_, hIn⟩
        rw [← hChild]
        exact List.getElem?_append_left hIndex

/- Spent addresses of a new child are spent below it. -/
theorem isSpent_push_size
    (hSpent : node.IsSpent rest) :
    (g.push node).root.IsSpent (g.size :: rest) := by
  refine .inr ⟨node, ?_, hSpent⟩
  exact List.getElem?_concat_length

/- A group that grows goes on running at its children. -/
theorem isBounded_push
    (hGroup : g.root.IsBounded)
    (hNode : node.IsBounded) :
    (g.push node).root.IsBounded := by
  rcases g with ⟨state, members⟩
  intro address line reached children hFind
  cases address with
  | nil =>
      cases hFind
      have hIndex := hGroup [] 0 reached members rfl
      change reached < (members ++ [node]).length
      rw [List.length_append]
      exact Nat.lt_of_lt_of_le hIndex (Nat.le_add_right _ _)
  | cons index rest =>
      rcases of_find?_push hFind with
        hOld | ⟨rfl, hNew⟩
      · exact hGroup _ _ _ _ hOld
      · exact hNode _ _ _ _ hNew

/- Where a group is put does not matter to what is in it. -/
theorem isBounded_toNode
    (hGroup : g.root.IsBounded)
    (line : Nat) :
    (g.toNode line).IsBounded := by
  rcases g with ⟨state, members⟩
  intro address line' reached children hFind
  cases address with
  | nil =>
      cases hFind
      exact hGroup [] 0 reached members rfl
  | cons index rest =>
      exact
        hGroup (index :: rest) line' reached children hFind

end Pushed

section Run

variable (routine : κ → Routine σ) (plan : Plan)
variable (g : Group κ) (w : World σ)

/- The run of a group is the run of its node. -/
theorem root_run_eq :
    (g.run routine plan w).subject.root =
      (g.root.run routine plan [] w).subject := by
  rcases g with ⟨state, children⟩
  cases state with
  | idle =>
      simp only [root, toNode, Node.run, run]
      rfl
  | running index =>
      simp only [root, toNode, Node.run, run]
      rfl
  | completed =>
      simp only [root, toNode, Node.run, run]
      rfl

/- A group becomes what its run leaves. -/
theorem root_run :
    g.root.Becomes routine plan
      (g.run routine plan w).subject.root :=
  .inr ⟨[], w, g.root_run_eq routine plan w⟩

end Run

end Group

end CommandScript
