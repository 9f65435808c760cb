import Mathlib.Data.List.Forall2
import CommandScript.Proofs.Reach

/-
  The log of a run by the nodes of the tree. A node is named
  by the way that leads to it, and each entry of a log is
  read as a mark at a node: what is noted, and where. What a
  run tells about a list of nodes is put together from what
  it tells about each of them.

  Key definitions include:
    * `Way`
    * `Group.ways`
    * `Mark`
    * `Mark.around`
    * `Told`

  Main statements:
    * `Group.ways_lead`
    * `Node.runFrom_told`
-/

namespace CommandScript

------------------------------------------------------------
-- Ways
------------------------------------------------------------

/- One turn on a way: the child that is taken. -/
structure Turn where
  index : Nat
  location : Location
deriving DecidableEq, Repr

/- A way from a group down to a node, turn by turn. -/
abbrev Way :=
  List Turn

namespace Way

/- The address that a way leads to. -/
def address (way : Way) : List Nat :=
  way.map Turn.index

/- The locations on a way. -/
def path (way : Way) : List Location :=
  way.map Turn.location

/-
  A way leads to the node that is listed as an item: it has
  as many turns before the last as groups are around the
  node, and it ends at the location of the node.
-/
def Leads (way : Way) (item : Item) : Prop :=
  ∃ outer last,
    way = outer ++ [last] ∧
      item.depth = outer.length ∧
        item.location = last.location

end Way

namespace Node

variable {κ : Type}

mutual

/- The ways to the nodes in a node, in pre-order. -/
def ways : Node κ → List Way
| .leaf _ _ => []
| .group _ _ children => waysFrom 0 children

/- The ways to and in children from an index on. -/
def waysFrom (index : Nat) : List (Node κ) → List Way
| [] => []
| node :: rest =>
    [⟨index, node.location⟩] ::
      (node.ways.map (⟨index, node.location⟩ :: ·) ++
        waysFrom (index + 1) rest)

end

mutual

/- The ways in a node lead to the addresses in it. -/
theorem addresses_eq_ways
    (node : Node κ) :
    node.addresses = [] :: node.ways.map Way.address := by
  cases node with
  | leaf location command => rfl
  | group line state children =>
      simp only [addresses, ways]
      rw [addressesFrom_eq_ways 0 children]

theorem addressesFrom_eq_ways
    (index : Nat)
    (nodes : List (Node κ)) :
    addressesFrom index nodes =
      (waysFrom index nodes).map Way.address := by
  cases nodes with
  | nil => rfl
  | cons node rest =>
      simp only [addressesFrom, waysFrom]
      rw [addresses_eq_ways node,
        addressesFrom_eq_ways (index + 1) rest]
      simp [Way.address, Function.comp_def]

end

mutual

/- The ways to and in a node lead to what is listed. -/
theorem ways_lead
    (outer : Way)
    (last : Turn)
    (node : Node κ)
    (hLocation : last.location = node.location) :
    List.Forall₂ Way.Leads
      ((outer ++ [last]) ::
        node.ways.map (outer ++ [last] ++ ·))
      (node.listing outer.length) := by
  have hLeads
      (item : Item)
      (hDepth : item.depth = outer.length)
      (hItem : item.location = node.location) :
      Way.Leads (outer ++ [last]) item :=
    ⟨outer, last, rfl, hDepth, hItem.trans hLocation.symm⟩
  cases node with
  | leaf location command =>
      exact .cons (hLeads _ rfl rfl) .nil
  | group line state children =>
      simp only [ways, listing]
      refine .cons (hLeads _ rfl rfl) ?_
      have hChildren :=
        waysFrom_lead (outer ++ [last]) 0 children
      rw [List.length_append] at hChildren
      exact hChildren

theorem waysFrom_lead
    (outer : Way)
    (index : Nat)
    (nodes : List (Node κ)) :
    List.Forall₂ Way.Leads
      ((waysFrom index nodes).map (outer ++ ·))
      (listingOfAll outer.length nodes) := by
  cases nodes with
  | nil => exact .nil
  | cons node rest =>
      have hNode :=
        ways_lead outer ⟨index, node.location⟩ node rfl
      have hRest := waysFrom_lead outer (index + 1) rest
      simp only [waysFrom, listingOfAll, List.map_cons,
        List.map_append, List.map_map, Function.comp_def,
        List.append_assoc, List.singleton_append] at hNode ⊢
      rw [← List.cons_append]
      exact List.rel_append hNode hRest

end

/- A way in some nodes starts with one of their indices. -/
theorem exists_turn_of_mem_waysFrom
    {index : Nat}
    {nodes : List (Node κ)}
    {way : Way}
    (hWay : way ∈ waysFrom index nodes) :
    ∃ first rest,
      way = first :: rest ∧ index ≤ first.index := by
  induction nodes generalizing index with
  | nil => cases hWay
  | cons node nodes ih =>
      simp only [waysFrom, List.mem_cons, List.mem_append]
        at hWay
      rcases hWay with rfl | hWay | hWay
      · exact ⟨_, [], rfl, Nat.le_refl _⟩
      · rcases List.mem_map.mp hWay with ⟨rest, _, rfl⟩
        exact ⟨_, rest, rfl, Nat.le_refl _⟩
      · rcases ih hWay with ⟨first, rest, hEqual, hLe⟩
        exact ⟨first, rest, hEqual, by omega⟩

end Node

namespace Group

variable {κ : Type}

/- The ways to the nodes of a group, in pre-order. -/
def ways (g : Group κ) : List Way :=
  Node.waysFrom 0 g.children

/- The ways lead to all addresses but that of the group. -/
theorem addresses_eq_ways
    (g : Group κ) :
    g.addresses = [] :: g.ways.map Way.address := by
  unfold addresses
  rw [Node.addressesFrom_eq_ways 0 g.children]
  rfl

/- The ways lead to the nodes that are listed. -/
theorem ways_lead
    (g : Group κ) :
    List.Forall₂ Way.Leads g.ways g.listing := by
  have hWays := Node.waysFrom_lead [] 0 g.children
  simp only [List.nil_append, List.map_id'] at hWays
  exact hWays

end Group

------------------------------------------------------------
-- Marks
------------------------------------------------------------

namespace Notice

/- What is noted when a node is about to run. -/
def isStart : Notice → Bool
| .starting => true
| _ => false

/- What is noted while a command runs, not about its run. -/
def isInner : Notice → Bool
| .remark _ | .cancelling => true
| _ => false

/- What is noted when a node has come to an end. -/
def isClosing : Notice → Bool
| .completed | .failed _ => true
| _ => false

/- What is noted when a node has failed. -/
def isFailed : Notice → Bool
| .failed _ => true
| _ => false

end Notice

/- What is noted at the end of a node, if there is one. -/
def Ending.notices : Ending → List Notice
| .finished .succeeded => [.completed]
| .finished (.failed cause) => [.failed cause.message]
| .dropped => []

/- Something that is noted while the node on a way runs. -/
structure Mark where
  way : Way
  notice : Notice
deriving DecidableEq, Repr

namespace Mark

/- A mark in a child as one in the parent. -/
def under
    (turn : Turn)
    (m : Mark) : Mark :=
  { m with way := turn :: m.way }

/-
  The entry of a mark in a log. It stands under all commands
  on the way, but a cancellation stands under none.
-/
def entry
    (path : List Location)
    (m : Mark) : Entry :=
  ⟨m.notice,
    if m.notice = .cancelling then []
    else path ++ m.way.path⟩

/- The marks of a child: its start, those in it, its end. -/
def around
    (turn : Turn)
    (inner : List Mark)
    (ending : Ending) : List Mark :=
  ⟨[turn], .starting⟩ ::
    (inner.map (under turn) ++
      ending.notices.map (Mark.mk [turn]))

/- A child stands under the parent, and under itself. -/
theorem entry_under
    (path : List Location)
    (turn : Turn)
    (m : Mark) :
    (m.under turn).entry path =
      m.entry (path ++ [turn.location]) := by
  simp [entry, under, Way.path]

/- A mark at a child itself. -/
theorem entry_child
    (path : List Location)
    (turn : Turn)
    {notice : Notice}
    (hNotice : notice ≠ .cancelling) :
    (Mark.mk [turn] notice).entry path =
      ⟨notice, path ++ [turn.location]⟩ := by
  simp [entry, hNotice, Way.path]

/- An end is no cancellation. -/
theorem ne_cancelling_of_mem_notices
    {ending : Ending}
    {notice : Notice}
    (hNotice : notice ∈ ending.notices) :
    notice ≠ .cancelling := by
  rintro rfl
  unfold Ending.notices at hNotice
  split at hNotice <;> simp at hNotice

/- The entries of the marks of a child. -/
theorem entries_around
    (path : List Location)
    (turn : Turn)
    (inner : List Mark)
    (ending : Ending) :
    let here := path ++ [turn.location]
    (around turn inner ending).map (entry path) =
      ⟨.starting, here⟩ ::
        (inner.map (entry here) ++
          ending.notices.map (Entry.mk · here)) := by
  intro here
  have hInner :
      inner.map (entry path ∘ under turn) =
        inner.map (entry here) := by
    apply List.map_congr_left
    intro m _
    exact m.entry_under path turn
  have hEnd :
      ending.notices.map (entry path ∘ Mark.mk [turn]) =
        ending.notices.map (Entry.mk · here) := by
    apply List.map_congr_left
    intro notice hNotice
    exact
      entry_child path turn
        (ne_cancelling_of_mem_notices hNotice)
  rw [around, List.map_cons, List.map_append, List.map_map,
    List.map_map, hInner, hEnd,
    entry_child path turn (by simp)]

end Mark

------------------------------------------------------------
-- Marks of Commands
------------------------------------------------------------

/- Entries of a command that are not about its run. -/
def NotesInner
    (path : List Location)
    (entries : List Entry) : Prop :=
  ∃ notices : List Notice,
    (∀ notice ∈ notices, notice.isInner = true) ∧
      entries =
        (notices.map (Mark.mk [])).map (Mark.entry path)

namespace NotesInner

variable {path : List Location}

theorem nil (path : List Location) : NotesInner path [] :=
  ⟨[], by simp, rfl⟩

theorem append
    {early late : List Entry}
    (hEarly : NotesInner path early)
    (hLate : NotesInner path late) :
    NotesInner path (early ++ late) := by
  rcases hEarly with ⟨earlier, hEarlier, rfl⟩
  rcases hLate with ⟨later, hLater, rfl⟩
  refine ⟨earlier ++ later, ?_, by simp⟩
  intro notice hNotice
  rcases List.mem_append.mp hNotice with hNotice | hNotice
  · exact hEarlier notice hNotice
  · exact hLater notice hNotice

end NotesInner

namespace World

variable {σ : Type}

/- A cancellation is noted under no command. -/
theorem cancelLog_notesInner
    (path : List Location)
    (w : World σ) :
    NotesInner path w.cancelLog := by
  unfold cancelLog
  cases w.cancelled with
  | true => exact .nil path
  | false =>
      exact
        ⟨[.cancelling], by simp [Notice.isInner],
          by simp [Mark.entry]⟩

/- A sleep to a moment notes nothing. -/
theorem sleepUntil_log
    (dropAt : Option Nat)
    (moment : Nat)
    (w : World σ) :
    (w.sleepUntil dropAt moment).log = [] := by
  unfold sleepUntil
  split <;> rfl

/- A sleep notes cancellations only. -/
theorem sleep_notesInner
    (path : List Location)
    (plan : Plan)
    (length : Nat)
    (wakes : Bool)
    (w : World σ) :
    NotesInner path (w.sleep plan length wakes).log := by
  apply sleep_cases
    (motive := fun waking => NotesInner path waking.log)
  · exact .nil path
  · intro moment
    rw [sleepUntil_log]
    exact .nil path
  · intro cancel
    exact cancelLog_notesInner path _
  · intro cancel moment before waking
    have hLog : waking.log = [] := sleepUntil_log _ _ _
    simp only [hLog, List.append_nil]
    exact cancelLog_notesInner path before.world

end World

namespace Routine

variable {σ : Type}

/- A command notes its remarks and cancellations only. -/
theorem run_log
    (routine : Routine σ)
    (plan : Plan)
    (path : List Location)
    (w : World σ) :
    NotesInner path (routine.run plan path w).log := by
  induction routine generalizing w with
  | finish result => exact .nil path
  | look next ih => exact ih w w
  | act change next ih => exact ih (w.alter change)
  | note remark next ih =>
      have hRemark :
          NotesInner path [⟨.remark remark, path⟩] :=
        ⟨[.remark remark], by simp [Notice.isInner],
          by simp [Mark.entry, Way.path]⟩
      exact hRemark.append (ih w)
  | sleep length wakes next ih =>
      have hSleep :=
        w.sleep_notesInner path plan length wakes
      cases hDropped :
          (w.sleep plan length wakes).dropped with
      | true =>
          rw [run_sleep_of_dropped hDropped]
          exact hSleep
      | false =>
          rw [run_sleep_of_awake hDropped]
          exact hSleep.append (ih _)

end Routine

------------------------------------------------------------
-- What a Run Tells
------------------------------------------------------------

/- What a run goes through: a node, or some children. -/
inductive Region (κ : Type) where
| inside (node : Node κ)
| along (index : Nat) (nodes : List (Node κ))

/-
  What a run tells, by its marks, and what it comes to. A
  command tells what it notes, and a group what its children
  tell. Children tell what each of them does, up to the
  first that does not succeed.
-/
inductive Told
    {κ σ : Type}
    (routine : κ → Routine σ)
    (plan : Plan) :
    Region κ → World σ → Outcome σ → List Mark → Prop where
| leaf
    {notices : List Notice}
    (location : Location)
    (command : κ)
    (w : World σ)
    (hInner : ∀ notice ∈ notices, notice.isInner = true) :
    Told routine plan (.inside (.leaf location command)) w
      ((routine command).run plan [] w).outcome
      (notices.map (Mark.mk []))
| group
    {children : List (Node κ)}
    {w : World σ}
    {o : Outcome σ}
    {marks : List Mark}
    (line : Nat)
    (hChildren :
      Told routine plan (.along 0 children) w o marks) :
    Told routine plan
      (.inside (.group line .idle children)) w o marks
| done
    (index : Nat)
    (w : World σ) :
    Told routine plan (.along index []) w (.pure w) []
| next
    {index : Nat}
    {node : Node κ}
    {rest : List (Node κ)}
    {w w' : World σ}
    {o : Outcome σ}
    {inner later : List Mark}
    (hNode :
      Told routine plan (.inside node) w
        ⟨.finished .succeeded, w'⟩ inner)
    (hRest :
      Told routine plan (.along (index + 1) rest) w' o
        later) :
    Told routine plan (.along index (node :: rest)) w o
      (Mark.around ⟨index, node.location⟩ inner
          (.finished .succeeded) ++
        later)
| stop
    {node : Node κ}
    {w : World σ}
    {o : Outcome σ}
    {inner : List Mark}
    (index : Nat)
    (rest : List (Node κ))
    (hNode : Told routine plan (.inside node) w o inner)
    (hStops : o.ending ≠ .finished .succeeded) :
    Told routine plan (.along index (node :: rest)) w
      (o.located node.location)
      (Mark.around ⟨index, node.location⟩ inner o.ending)

namespace Node

variable {κ σ : Type}
variable (routine : κ → Routine σ) (plan : Plan)

mutual

/- A run of a fresh node tells its log. -/
theorem run_told
    (path : List Location)
    {node : Node κ}
    (hFresh : node.IsFresh)
    (w : World σ) :
    let p := node.run routine plan path w
    ∃ marks,
      Told routine plan (.inside node) w p.outcome marks ∧
        p.log = marks.map (Mark.entry path) := by
  cases node with
  | leaf location command =>
      rcases (routine command).run_log plan path w with
        ⟨notices, hInner, hLog⟩
      refine ⟨notices.map (Mark.mk []), ?_, hLog⟩
      simp only [run]
      change
        Told routine plan _ w
          ((routine command).run plan path w).outcome _
      rw [(routine command).run_outcome_path plan path []]
      exact .leaf location command w hInner
  | group line state children =>
      rcases hFresh with ⟨rfl, hChildren⟩
      rcases runFrom_told path 0 hChildren w with
        ⟨marks, hTold, hLog⟩
      exact ⟨marks, .group line hTold, hLog⟩

/- A run of fresh nodes tells its log. -/
theorem runFrom_told
    (path : List Location)
    (index : Nat)
    {nodes : List (Node κ)}
    (hFresh : AreFresh nodes)
    (w : World σ) :
    let p := runFrom routine plan path index nodes w
    ∃ marks,
      Told routine plan (.along index nodes) w p.outcome
          marks ∧
        p.log = marks.map (Mark.entry path) := by
  cases nodes with
  | nil => exact ⟨[], .done index w, rfl⟩
  | cons node rest =>
      rcases hFresh with ⟨hNode, hRest⟩
      rcases run_told (path ++ [node.location]) hNode w with
        ⟨inner, hTold, hLog⟩
      simp only [runFrom]
      generalize
        node.run routine plan (path ++ [node.location]) w =
          p at hTold hLog ⊢
      rcases p with ⟨subject, ending, w', log⟩
      subst hLog
      cases ending with
      | dropped =>
          refine
            ⟨_, .stop index rest hTold
              (by simp [Passage.outcome]), ?_⟩
          rw [Mark.entries_around]
          simp [Ending.notices, Passage.outcome]
      | finished result =>
          cases result with
          | failed cause =>
              refine
                ⟨_, .stop index rest hTold
                  (by simp [Passage.outcome]), ?_⟩
              rw [Mark.entries_around]
              simp [Ending.notices, Passage.outcome]
          | succeeded =>
              rcases runFrom_told path (index + 1) hRest w'
                with ⟨later, hLater, hLaterLog⟩
              refine ⟨_, .next hTold hLater, ?_⟩
              rw [List.map_append, Mark.entries_around]
              simp [Ending.notices, hLaterLog]

end

end Node

end CommandScript
