import CommandScript.Proofs.ParsedTree
import CommandScript.Proofs.Starts
import CommandScript.Session

/-
  Spots in a session, and where the node at a spot goes. A
  node stays in its group, wherever that is nested, until
  the group is replaced or lost. One lemma says everything
  that an action can do to groups; what holds of nodes at
  all times is read off its cases.

  Key definitions include:
    * `Spot`
    * `Session.follow`
    * `Session.brings`
    * `Change`
    * `Moves`

  Main statements:
    * `Session.perform_change`
    * `Change.moves`
    * `Moves.precedes`
    * `Moves.isSpent`
    * `Change.origin`
-/

namespace CommandScript

------------------------------------------------------------
-- Spots
------------------------------------------------------------

/- The name of a group, and the address of a node in it. -/
structure Spot where
  id : String
  address : List Nat
deriving DecidableEq, Repr

namespace Spot

/- A spot, unless it is in the group of a name. -/
def outside
    (id : String)
    (spot : Spot) : Option Spot :=
  if spot.id = id then none else some spot

/-
  A spot when the group of a name has become the child of
  another group, under an index.
-/
def nestedIn
    (id child : String)
    (index : Nat)
    (spot : Spot) : Option Spot :=
  if spot.id = child then some ⟨id, index :: spot.address⟩
  else some spot

variable {κ : Type}

/- The node at a spot. -/
def node?
    (spot : Spot)
    (groups : Dictionary (Group κ)) : Option (Node κ) :=
  (groups.get? spot.id).bind fun g =>
    g.root.find? spot.address

/- The address of a spot is spent, if there is a group. -/
def IsSpent
    (spot : Spot)
    (groups : Dictionary (Group κ)) : Prop :=
  ∀ g, groups.get? spot.id = some g →
    g.root.IsSpent spot.address

theorem node?_of_get?
    {spot : Spot}
    {groups : Dictionary (Group κ)}
    {g : Group κ}
    (hGroup : groups.get? spot.id = some g) :
    spot.node? groups = g.root.find? spot.address := by
  rw [node?, hGroup]
  rfl

theorem isSpent_of_get?
    {spot : Spot}
    {groups : Dictionary (Group κ)}
    {g : Group κ}
    (hGroup : groups.get? spot.id = some g)
    (hSpent : g.root.IsSpent spot.address) :
    spot.IsSpent groups := by
  intro other hOther
  rw [hGroup] at hOther
  cases hOther
  exact hSpent

/- Another group does not matter to a spot. -/
theorem node?_insert_of_ne
    {spot : Spot}
    {id : String}
    (groups : Dictionary (Group κ))
    (g : Group κ)
    (hId : spot.id ≠ id) :
    spot.node? (groups.insert id g) = spot.node? groups := by
  rw [node?, node?, groups.get?_insert_of_ne hId]

/- What is left when a group is gone is in another one. -/
theorem of_node?_erase
    {spot : Spot}
    {groups : Dictionary (Group κ)}
    {id : String}
    {node : Node κ}
    (hNode : spot.node? (groups.erase id) = some node) :
    spot.id ≠ id ∧ spot.node? groups = some node := by
  by_cases hId : spot.id = id
  · rw [node?, hId, groups.get?_erase_self] at hNode
    cases hNode
  · rw [node?, groups.get?_erase_of_ne hId] at hNode
    exact ⟨hId, hNode⟩

/-
  A leaf where a group has got a node is in another group,
  or in this one before, or in the node.
-/
theorem leaf_of_insert_push
    {spot : Spot}
    {groups : Dictionary (Group κ)}
    {id : String}
    {g : Group κ}
    {node : Node κ}
    {location : Location}
    {command : κ}
    (hLeaf :
      spot.node? (groups.insert id (g.push node)) =
        some (.leaf location command)) :
    (spot.id ≠ id ∧
        spot.node? groups =
          some (.leaf location command)) ∨
      (∃ address,
        spot = ⟨id, address⟩ ∧
          g.root.find? address =
            some (.leaf location command)) ∨
      ∃ rest,
        spot = ⟨id, g.size :: rest⟩ ∧
          node.find? rest =
            some (.leaf location command) := by
  by_cases hId : spot.id = id
  · rcases spot with ⟨id', address⟩
    cases hId
    rw [node?_of_get? (groups.get?_insert_self _ _)]
      at hLeaf
    cases address with
    | nil => cases hLeaf
    | cons index rest =>
        rcases Group.of_find?_push hLeaf with
          hOld | ⟨rfl, hNew⟩
        · exact .inr (.inl ⟨_, rfl, hOld⟩)
        · exact .inr (.inr ⟨rest, rfl, hNew⟩)
  · rw [node?_insert_of_ne groups _ hId] at hLeaf
    exact .inl ⟨hId, hLeaf⟩

end Spot

------------------------------------------------------------
-- Where Nodes Go
------------------------------------------------------------

namespace Session

variable {κ σ : Type}

/-
  Where the node at a spot is after an action. It is gone
  when its group is replaced, or is to be nested in a group
  that is not there.
-/
def follow
    (s : Session κ σ)
    (action : Action κ σ)
    (spot : Spot) : Option Spot :=
  match action with
  | .create id => spot.outside id
  | .parse id text dialect =>
      match
        (⟨s.registry, dialect⟩ : Language κ).parse text
      with
      | .ok _ => spot.outside id
      | .error _ => some spot
  | .nest id child _ =>
      match
        s.groups.get? child, (s.groups.erase child).get? id
      with
      | none, _ => some spot
      | some _, none => spot.outside child
      | some _, some outer =>
          spot.nestedIn id child outer.size
  | _ => some spot

/- The spots at which an action puts new nodes. -/
def brings
    (s : Session κ σ)
    (action : Action κ σ)
    (spot : Spot) : Prop :=
  match action with
  | .create id | .parse id _ _ => spot.id = id
  | .push id _ _ | .construct id _ _ =>
      ∃ g, s.groups.get? id = some g ∧
        spot = ⟨id, [g.size]⟩
  | _ => False

end Session

/-
  What an action does to groups: which there are before, how
  spots are followed, where there are new nodes, and which
  groups there are after it.
-/
inductive Change
    {κ σ : Type}
    (routine : κ → Routine σ)
    (before : Dictionary (Group κ)) :
    (Spot → Option Spot) → (Spot → Prop) →
      Dictionary (Group κ) → Prop where
| same
    {brings : Spot → Prop} :
    Change routine before some brings before
| replaced
    (id : String)
    {g : Group κ}
    (hFresh : g.IsFresh) :
    Change routine before (Spot.outside id)
      (fun spot => spot.id = id)
      (before.insert id g)
| grown
    {id : String}
    {g : Group κ}
    (location : Location)
    (command : κ)
    (hGroup : before.get? id = some g) :
    Change routine before some
      (fun spot =>
        ∃ g, before.get? id = some g ∧
          spot = ⟨id, [g.size]⟩)
      (before.insert id (g.push (.leaf location command)))
| ran
    {brings : Spot → Prop}
    {id : String}
    {g : Group κ}
    (plan : Plan)
    (w : World σ)
    (hGroup : before.get? id = some g) :
    Change routine before some brings
      (before.insert id (g.run routine plan w).subject)
| nested
    {brings : Spot → Prop}
    {id child : String}
    {outer g : Group κ}
    (line : Nat)
    (hGroup : before.get? child = some g)
    (hOuter : (before.erase child).get? id = some outer) :
    Change routine before
      (Spot.nestedIn id child outer.size)
      brings
      ((before.erase child).insert id
        (outer.push (g.toNode line)))
| lost
    {brings : Spot → Prop}
    (child : String) :
    Change routine before (Spot.outside child) brings
      (before.erase child)

/- Everything that an action can do to groups. -/
theorem Session.perform_change
    {κ σ : Type}
    (routine : κ → Routine σ)
    (s : Session κ σ)
    (action : Action κ σ) :
    Change routine s.groups (s.follow action)
      (s.brings action)
      (s.perform routine action).1.groups := by
  cases action with
  | create id =>
      refine .replaced id ?_
      exact ⟨rfl, trivial⟩
  | parse id text dialect =>
      have hFresh
          {g : Group κ}
          (hParse :
            (⟨s.registry, dialect⟩ : Language κ).parse
              text = .ok g) :
          g.IsFresh :=
        (Language.shows_of_parse hParse).1
      unfold follow perform Session.parse
      simp only
      generalize
        (⟨s.registry, dialect⟩ : Language κ).parse text =
          result at hFresh ⊢
      cases result with
      | ok g => exact .replaced id (hFresh rfl)
      | error halt => cases halt <;> exact .same
  | inspect id =>
      unfold perform
      simp only
      cases s.groups.get? id <;> exact .same
  | push id location command =>
      unfold perform Session.push
      simp only
      cases hGroup : s.groups.get? id with
      | none => exact .same
      | some g => exact .grown location command hGroup
  | construct id location params =>
      unfold perform Session.construct Session.push
      simp only
      cases s.registry.construct location.kind params with
      | none => exact .same
      | some result =>
          cases result with
          | error halt => cases halt <;> exact .same
          | ok command =>
              simp only
              cases hGroup : s.groups.get? id with
              | none => exact .same
              | some g =>
                  exact .grown location command hGroup
  | nest id child line =>
      unfold follow perform Session.nest Session.push
      simp only
      cases hGroup : s.groups.get? child with
      | none => exact .same
      | some g =>
          simp only
          cases hOuter :
              (s.groups.erase child).get? id with
          | none => exact .lost child
          | some outer => exact .nested line hGroup hOuter
  | run id cancelAfter dropAfter =>
      unfold perform Session.runBy
      simp only
      cases hGroup : s.groups.get? id with
      | none => exact .same
      | some g => exact .ran _ _ hGroup
  | runThen id onComplete cancelAfter dropAfter =>
      unfold perform Session.runBy
      simp only
      cases hGroup : s.groups.get? id with
      | none => exact .same
      | some g =>
          simp only [Group.runThen,
            Passage.callBack_subject]
          exact .ran _ _ hGroup
  | register kind constructor => exact .same
  | cancel => exact .same
  | await length =>
      unfold perform Session.await
      simp only
      split <;> exact .same
  | alter change => exact .same

------------------------------------------------------------
-- Moves of a Node
------------------------------------------------------------

/-
  How a node gets from a spot to another: its group is the
  same, has grown or has been run, or it has been nested.
-/
inductive Moves
    {κ σ : Type}
    (routine : κ → Routine σ)
    (before after : Dictionary (Group κ))
    (spot : Spot) : Spot → Prop where
| kept
    (hSame :
      after.get? spot.id = before.get? spot.id) :
    Moves routine before after spot spot
| grown
    {g : Group κ}
    {node : Node κ}
    (hBefore : before.get? spot.id = some g)
    (hAfter : after.get? spot.id = some (g.push node)) :
    Moves routine before after spot spot
| ran
    {g : Group κ}
    (plan : Plan)
    (w : World σ)
    (hBefore : before.get? spot.id = some g)
    (hAfter :
      after.get? spot.id =
        some (g.run routine plan w).subject) :
    Moves routine before after spot spot
| nested
    {id : String}
    {outer g : Group κ}
    {line : Nat}
    (hBefore : before.get? spot.id = some g)
    (hAfter :
      after.get? id = some (outer.push (g.toNode line))) :
    Moves routine before after spot
      ⟨id, outer.size :: spot.address⟩

section Moves

variable {κ σ : Type}
variable {routine : κ → Routine σ}
variable {before after : Dictionary (Group κ)}
variable {follow : Spot → Option Spot}
variable {brings : Spot → Prop}
variable {spot later : Spot}

/- A spot is followed as its group moves. -/
theorem Change.moves
    (hChange :
      Change routine before follow brings after)
    (hFollow : follow spot = some later) :
    Moves routine before after spot later := by
  cases hChange with
  | same =>
      cases hFollow
      exact .kept rfl
  | @replaced id g hFresh =>
      unfold Spot.outside at hFollow
      by_cases hId : spot.id = id
      · rw [if_pos hId] at hFollow
        cases hFollow
      · rw [if_neg hId] at hFollow
        cases hFollow
        exact .kept (before.get?_insert_of_ne hId g)
  | @grown id g location command hGroup =>
      cases hFollow
      by_cases hId : spot.id = id
      · rw [← hId] at hGroup ⊢
        exact .grown hGroup (before.get?_insert_self _ _)
      · exact .kept (before.get?_insert_of_ne hId _)
  | @ran _ id g plan w hGroup =>
      cases hFollow
      by_cases hId : spot.id = id
      · rw [← hId] at hGroup ⊢
        exact .ran plan w hGroup (before.get?_insert_self _ _)
      · exact .kept (before.get?_insert_of_ne hId _)
  | @nested _ id child outer g line hGroup hOuter =>
      unfold Spot.nestedIn at hFollow
      by_cases hChild : spot.id = child
      · rw [if_pos hChild] at hFollow
        cases hFollow
        rw [← hChild] at hGroup
        exact
          .nested hGroup (Dictionary.get?_insert_self _ _ _)
      · rw [if_neg hChild] at hFollow
        cases hFollow
        have hErase := before.get?_erase_of_ne hChild
        by_cases hId : spot.id = id
        · rw [← hId] at hOuter ⊢
          rw [hErase] at hOuter
          exact
            .grown hOuter (Dictionary.get?_insert_self _ _ _)
        · apply Moves.kept
          rw [Dictionary.get?_insert_of_ne _ hId, hErase]
  | lost child =>
      unfold Spot.outside at hFollow
      by_cases hChild : spot.id = child
      · rw [if_pos hChild] at hFollow
        cases hFollow
      · rw [if_neg hChild] at hFollow
        cases hFollow
        exact .kept (before.get?_erase_of_ne hChild)

/- A node that is nested is found in its new spot. -/
theorem find?_nested
    {outer g : Group κ}
    {line : Nat}
    {address : List Nat} :
    (outer.push (g.toNode line)).root.find?
        (outer.size :: address) =
      (g.toNode line).find? address :=
  Group.find?_push_size

namespace Moves

/- The node at a spot moves on in its states. -/
theorem precedes
    {node : Node κ}
    (hMoves : Moves routine before after spot later)
    (hNode : spot.node? before = some node) :
    ∃ node',
      later.node? after = some node' ∧
        node.Precedes node' := by
  cases hMoves with
  | kept hSame =>
      refine ⟨node, ?_, .refl node⟩
      rw [← hNode, Spot.node?, Spot.node?, hSame]
  | @grown g child hBefore hAfter =>
      rw [Spot.node?_of_get? hBefore] at hNode
      rw [Spot.node?_of_get? hAfter]
      cases hAddress : spot.address with
      | nil =>
          rw [hAddress] at hNode
          cases hNode
          refine ⟨_, rfl, le_refl g.state, ?_⟩
          change _ ≤ (g.children ++ [child]).length
          rw [List.length_append]
          exact Nat.le_add_right _ _
      | cons index rest =>
          rw [hAddress] at hNode
          exact ⟨node, Group.find?_push hNode, .refl node⟩
  | @ran g plan w hBefore hAfter =>
      rw [Spot.node?_of_get? hBefore] at hNode
      rw [Spot.node?_of_get? hAfter]
      have hRun := g.root_run routine plan w
      rcases hRun.find? spot.address with
        ⟨hNone, _⟩ | ⟨inner, inner', hInner, hInner', hNext⟩
      · rw [hNone] at hNode
        cases hNode
      · rw [hInner] at hNode
        cases hNode
        exact ⟨inner', hInner', hNext.precedes⟩
  | @nested id outer g line hBefore hAfter =>
      rw [Spot.node?_of_get? hBefore] at hNode
      rw [Spot.node?_of_get? hAfter, find?_nested]
      cases hAddress : spot.address with
      | nil =>
          rw [hAddress] at hNode
          cases hNode
          exact ⟨_, rfl, le_refl g.state, Nat.le_refl _⟩
      | cons index rest =>
          rw [hAddress] at hNode
          exact ⟨node, hNode, .refl node⟩

/- A spent spot stays spent. -/
theorem isSpent
    (hMoves : Moves routine before after spot later)
    (hSpent : spot.IsSpent before) :
    later.IsSpent after := by
  cases hMoves with
  | kept hSame =>
      intro g hGroup
      rw [hSame] at hGroup
      exact hSpent g hGroup
  | @grown g child hBefore hAfter =>
      have hIn := hSpent g hBefore
      exact
        Spot.isSpent_of_get? hAfter
          (Group.isSpent_push hIn)
  | @ran g plan w hBefore hAfter =>
      have hIn := hSpent g hBefore
      have hRun := g.root_run routine plan w
      exact Spot.isSpent_of_get? hAfter (hRun.isSpent hIn)
  | @nested id outer g line hBefore hAfter =>
      have hIn := hSpent g hBefore
      have hNode :=
        (Node.isSpent_group 0 line).mp hIn
      exact
        Spot.isSpent_of_get? hAfter
          (Group.isSpent_push_size hNode)

/- What is at a spent spot stays as it is. -/
theorem node?_of_isSpent
    {node : Node κ}
    (hMoves : Moves routine before after spot later)
    (hSpent : spot.IsSpent before)
    (hNode : spot.node? before = some node) :
    later.node? after = some node := by
  cases hMoves with
  | kept hSame =>
      rw [← hNode, Spot.node?, Spot.node?, hSame]
  | @grown g child hBefore hAfter =>
      have hIn := hSpent g hBefore
      rw [Spot.node?_of_get? hBefore] at hNode
      rw [Spot.node?_of_get? hAfter]
      cases hAddress : spot.address with
      | nil =>
          rw [hAddress] at hIn
          exact hIn.elim
      | cons index rest =>
          rw [hAddress] at hNode
          exact Group.find?_push hNode
  | @ran g plan w hBefore hAfter =>
      have hIn := hSpent g hBefore
      have hRun := g.root_run routine plan w
      rw [Spot.node?_of_get? hBefore] at hNode
      rw [Spot.node?_of_get? hAfter,
        hRun.find?_of_isSpent hIn]
      exact hNode
  | @nested id outer g line hBefore hAfter =>
      have hIn := hSpent g hBefore
      rw [Spot.node?_of_get? hBefore] at hNode
      rw [Spot.node?_of_get? hAfter, find?_nested]
      cases hAddress : spot.address with
      | nil =>
          rw [hAddress] at hIn
          exact hIn.elim
      | cons index rest =>
          rw [hAddress] at hNode
          exact hNode

end Moves

------------------------------------------------------------
-- Where Leaves Come From
------------------------------------------------------------

/- A leaf was there before an action, or is brought by it. -/
theorem Change.origin
    {location : Location}
    {command : κ}
    (hChange :
      Change routine before follow brings after)
    (hLeaf :
      later.node? after = some (.leaf location command)) :
    brings later ∨
      ∃ spot,
        follow spot = some later ∧
          spot.node? before =
            some (.leaf location command) := by
  cases hChange with
  | same => exact .inr ⟨later, rfl, hLeaf⟩
  | @replaced id g hFresh =>
      by_cases hId : later.id = id
      · exact .inl hId
      · refine .inr ⟨later, if_neg hId, ?_⟩
        rw [← hLeaf, Spot.node?_insert_of_ne before g hId]
  | @grown id g location' command' hGroup =>
      rcases Spot.leaf_of_insert_push hLeaf with
        ⟨_, hOld⟩ | ⟨address, rfl, hOld⟩ | ⟨rest, rfl, hNew⟩
      · exact .inr ⟨later, rfl, hOld⟩
      · refine .inr ⟨_, rfl, ?_⟩
        rw [Spot.node?_of_get? hGroup]
        exact hOld
      · cases rest with
        | nil => exact .inl ⟨g, hGroup, rfl⟩
        | cons _ _ => cases hNew
  | @ran _ id g plan w hGroup =>
      refine .inr ⟨later, rfl, ?_⟩
      by_cases hId : later.id = id
      · rw [← hId] at hGroup hLeaf
        rw [Spot.node?_of_get?
          (before.get?_insert_self _ _)] at hLeaf
        rw [Spot.node?_of_get? hGroup]
        exact (g.root_run routine plan w).leaf_of_find? hLeaf
      · rw [← hLeaf, Spot.node?_insert_of_ne before _ hId]
  | @nested _ id child outer g line hGroup hOuter =>
      refine .inr ?_
      have hDistinct : id ≠ child := by
        rintro rfl
        rw [before.get?_erase_self] at hOuter
        cases hOuter
      rcases Spot.leaf_of_insert_push hLeaf with
        ⟨_, hErased⟩ |
        ⟨address, rfl, hOld⟩ | ⟨rest, rfl, hNew⟩
      · rcases Spot.of_node?_erase hErased with
          ⟨hChild, hOld⟩
        exact ⟨later, if_neg hChild, hOld⟩
      · refine ⟨⟨id, address⟩, if_neg hDistinct, ?_⟩
        rw [before.get?_erase_of_ne hDistinct] at hOuter
        rw [Spot.node?_of_get? hOuter]
        exact hOld
      · refine ⟨⟨child, rest⟩, if_pos rfl, ?_⟩
        rw [Spot.node?_of_get? hGroup]
        cases rest with
        | nil => cases hNew
        | cons _ _ => exact hNew
  | lost child =>
      rcases Spot.of_node?_erase hLeaf with ⟨hChild, hOld⟩
      exact .inr ⟨later, if_neg hChild, hOld⟩

/- Groups go on running at their children. -/
theorem Change.isBounded
    (hChange :
      Change routine before follow brings after)
    (hBefore :
      ∀ id g, before.get? id = some g → g.root.IsBounded) :
    ∀ id g, after.get? id = some g → g.root.IsBounded := by
  have hInsert
      {groups : Dictionary (Group κ)}
      {id : String}
      {g : Group κ}
      (hOthers :
        ∀ id g, groups.get? id = some g → g.root.IsBounded)
      (hGroup : g.root.IsBounded) :
      ∀ id' g',
        (groups.insert id g).get? id' = some g' →
          g'.root.IsBounded := by
    intro id' g' hGet
    by_cases hId : id' = id
    · rw [hId, groups.get?_insert_self] at hGet
      cases hGet
      exact hGroup
    · rw [groups.get?_insert_of_ne hId] at hGet
      exact hOthers id' g' hGet
  have hErase
      (child : String) :
      ∀ id g, (before.erase child).get? id = some g →
        g.root.IsBounded := by
    intro id g hGet
    by_cases hId : id = child
    · rw [hId, before.get?_erase_self] at hGet
      cases hGet
    · rw [before.get?_erase_of_ne hId] at hGet
      exact hBefore id g hGet
  cases hChange with
  | same => exact hBefore
  | replaced id hFresh =>
      exact
        hInsert hBefore (Node.isBounded_of_isFresh hFresh)
  | grown location command hGroup =>
      have hLeaf :
          (Node.leaf location command).IsBounded :=
        Node.isBounded_of_isFresh trivial
      exact
        hInsert hBefore
          (Group.isBounded_push (hBefore _ _ hGroup) hLeaf)
  | @ran _ id g plan w hGroup =>
      have hRun := g.root_run routine plan w
      exact
        hInsert hBefore
          (hRun.isBounded (hBefore _ _ hGroup))
  | nested line hGroup hOuter =>
      have hNode :=
        Group.isBounded_toNode (hBefore _ _ hGroup) line
      exact
        hInsert (hErase _)
          (Group.isBounded_push (hErase _ _ _ hOuter) hNode)
  | lost child => exact hErase child

end Moves

end CommandScript
