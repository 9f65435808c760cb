import CommandScript.Proofs.Marks

/-
  The order of the marks of a run. Nodes are started in the
  order in which they are listed, and nothing is noted at a
  node that is not started. What is noted in a node stands
  between its start and its end; only the nodes in which a
  run is dropped have no end.

  Key definitions include:
    * `Mark.started`
    * `Mark.Encloses`
    * `Mark.LeavesOpen`
    * `Mark.Brackets`

  Main statements:
    * `Told.started_prefix`
    * `Told.owns`
    * `Told.brackets`
-/

namespace CommandScript

------------------------------------------------------------
-- Starts
------------------------------------------------------------

namespace Mark

/- The ways to the nodes that are started, in order. -/
def started (marks : List Mark) : List Way :=
  (marks.filter (·.notice.isStart)).map Mark.way

/- The way to the node that is started last. -/
def last (marks : List Mark) : Way :=
  (started marks).getLastD []

theorem started_append
    (early late : List Mark) :
    started (early ++ late) =
      started early ++ started late := by
  simp [started]

/- What is started in a child is started in the parent. -/
theorem started_under
    (turn : Turn)
    (marks : List Mark) :
    started (marks.map (under turn)) =
      (started marks).map (turn :: ·) := by
  simp [started, under, List.filter_map, Function.comp_def]

/- No node is started by an end. -/
theorem started_notices
    (way : Way)
    (ending : Ending) :
    started (ending.notices.map (Mark.mk way)) = [] := by
  rcases ending with (_ | _) | _ <;> rfl

/- Nor by what a command notes. -/
theorem started_inner
    {notices : List Notice}
    (way : Way)
    (hInner : ∀ notice ∈ notices, notice.isInner = true) :
    started (notices.map (Mark.mk way)) = [] := by
  simp only [started, List.map_eq_nil_iff,
    List.filter_eq_nil_iff]
  intro m hMark hStart
  rcases List.mem_map.mp hMark with ⟨notice, hNotice, rfl⟩
  have hInner := hInner notice hNotice
  cases notice <;> cases hStart
  cases hInner

/- A child is started before the nodes in it. -/
theorem started_around
    (turn : Turn)
    (inner : List Mark)
    (ending : Ending) :
    started (around turn inner ending) =
      [turn] :: (started inner).map (turn :: ·) := by
  have hStart :
      around turn inner ending =
        [⟨[turn], .starting⟩] ++
          (inner.map (under turn) ++
            ending.notices.map (Mark.mk [turn])) := rfl
  rw [hStart, started_append, started_append, started_under,
    started_notices, List.append_nil]
  rfl

/- What is noted of a child is noted on a way through it. -/
theorem exists_below_of_mem_around
    {turn : Turn}
    {inner : List Mark}
    {ending : Ending}
    {m : Mark}
    (hMark : m ∈ around turn inner ending) :
    ∃ below, m.way = turn :: below := by
  simp only [around, List.mem_cons, List.mem_append,
    List.mem_map] at hMark
  rcases hMark with rfl | ⟨below, _, rfl⟩ | ⟨_, _, rfl⟩
  · exact ⟨[], rfl⟩
  · exact ⟨below.way, rfl⟩
  · exact ⟨[], rfl⟩

/- A way that is started in a child leads through it. -/
theorem exists_below_of_mem_started_around
    {turn : Turn}
    {inner : List Mark}
    {ending : Ending}
    {way : Way}
    (hWay : way ∈ started (around turn inner ending)) :
    ∃ below, way = turn :: below := by
  rcases List.mem_map.mp hWay with ⟨m, hMark, rfl⟩
  exact exists_below_of_mem_around (List.mem_filter.mp hMark).1

/- The last start in a child. -/
theorem last_around
    (turn : Turn)
    (inner : List Mark)
    (ending : Ending) :
    last (around turn inner ending) =
      turn :: last inner := by
  unfold last
  rw [started_around]
  cases hStarted : (started inner).getLast? with
  | none =>
      rw [List.getLast?_eq_none_iff.mp hStarted]
      rfl
  | some way =>
      simp [List.getLastD_eq_getLast?, hStarted,
        List.getLast?_cons]

/- The last start of all is the last of what comes later. -/
theorem last_append
    {late : List Mark}
    (early : List Mark)
    (hLate : started late ≠ []) :
    last (early ++ late) = last late := by
  unfold last
  rw [started_append, List.getLastD_eq_getLast?,
    List.getLastD_eq_getLast?,
    List.getLast?_append_of_ne_nil _ hLate]

theorem last_mem_started
    {marks : List Mark}
    (hStarted : started marks ≠ []) :
    last marks ∈ started marks := by
  unfold last
  rw [List.getLastD_eq_getLast?,
    List.getLast?_eq_some_getLast hStarted]
  exact List.getLast_mem hStarted

end Mark

/- A location does not turn an end into a success. -/
theorem Ending.located_eq_succeeded_iff
    {ending : Ending}
    {location : Location} :
    ending.located location = .finished .succeeded ↔
      ending = .finished .succeeded := by
  rcases ending with (_ | _) | _ <;> simp [located]

/- What stops a child stops its parent. -/
theorem Outcome.located_stops
    {σ : Type}
    {o : Outcome σ}
    (location : Location)
    (hStops : o.ending ≠ .finished .succeeded) :
    (o.located location).ending ≠ .finished .succeeded :=
  fun hSucceeds =>
    hStops (Ending.located_eq_succeeded_iff.mp hSucceeds)

namespace Region

variable {κ : Type}

/- The ways to the nodes that a run may start. -/
def ways : Region κ → List Way
| .inside node => node.ways
| .along index nodes => Node.waysFrom index nodes

/-
  A mark is at a node that has been started; or it is of the
  node itself that is run, which its parent starts.
-/
def Owns
    (marks : List Mark)
    (m : Mark) : Region κ → Prop
| .inside _ =>
    m.way ∈ Mark.started marks ∨
      (m.way = [] ∧ m.notice.isInner = true)
| .along _ _ => m.way ∈ Mark.started marks

/- Every way in a node has a turn. -/
theorem ne_nil_of_mem_ways
    {region : Region κ}
    {way : Way}
    (hWay : way ∈ region.ways) :
    way ≠ [] := by
  rintro rfl
  have hTurn :
      ∀ index (nodes : List (Node κ)),
        [] ∉ Node.waysFrom index nodes := by
    intro index nodes hNil
    rcases Node.exists_turn_of_mem_waysFrom hNil with
      ⟨_, _, hEqual, _⟩
    cases hEqual
  rcases region with (_ | ⟨_, _, children⟩) | ⟨index, nodes⟩
  · cases hWay
  · exact hTurn 0 children hWay
  · exact hTurn index nodes hWay

end Region

namespace Told

variable {κ σ : Type}
variable {routine : κ → Routine σ} {plan : Plan}
variable {region : Region κ}
variable {w : World σ}
variable {o : Outcome σ}
variable {marks : List Mark}

/-
  Nodes are started in pre-order, without a gap. All are
  started by a run that succeeds.
-/
theorem started_prefix
    (hTold : Told routine plan region w o marks) :
    Mark.started marks <+: region.ways ∧
      (o.ending = .finished .succeeded →
        Mark.started marks = region.ways) := by
  induction hTold with
  | @leaf notices location command w hInner =>
      rw [Mark.started_inner [] hInner]
      exact ⟨List.nil_prefix, fun _ => rfl⟩
  | group line hChildren ih => exact ih
  | done index w =>
      exact ⟨List.prefix_rfl, fun _ => rfl⟩
  | @next index node rest w w' o inner later hNode hRest
      ihNode ihRest =>
      rw [Mark.started_append, Mark.started_around,
        ihNode.2 rfl]
      simp only [Region.ways, Node.waysFrom,
        List.cons_append]
      constructor
      · apply List.cons_prefix_cons.mpr
        refine ⟨rfl, ?_⟩
        exact (List.prefix_append_right_inj _).mpr ihRest.1
      · intro hSucceeds
        rw [ihRest.2 hSucceeds]
        rfl
  | @stop node w o inner index rest hNode hStops ihNode =>
      rw [Mark.started_around]
      simp only [Region.ways, Node.waysFrom]
      constructor
      · apply List.cons_prefix_cons.mpr
        refine ⟨rfl, ?_⟩
        exact
          (ihNode.1.map _).trans (List.prefix_append _ _)
      · intro hSucceeds
        exact
          absurd hSucceeds
            (Outcome.located_stops node.location hStops)

/- What is started is in the tree. -/
theorem mem_ways_of_mem_started
    {way : Way}
    (hTold : Told routine plan region w o marks)
    (hWay : way ∈ Mark.started marks) :
    way ∈ region.ways :=
  hTold.started_prefix.1.subset hWay

/- A run that does not succeed has started a node. -/
theorem started_ne_nil
    {index : Nat}
    {nodes : List (Node κ)}
    (hTold :
      Told routine plan (.along index nodes) w o marks)
    (hStops : o.ending ≠ .finished .succeeded) :
    Mark.started marks ≠ [] := by
  cases hTold with
  | done => exact absurd rfl hStops
  | next hNode hRest =>
      rw [Mark.started_append, Mark.started_around]
      simp
  | stop _ _ hNode hNodeStops =>
      rw [Mark.started_around]
      simp

/- What is noted of a child is at a node it has started. -/
theorem owned_around
    {node : Node κ}
    {inner : List Mark}
    {m : Mark}
    (turn : Turn)
    (ending : Ending)
    (hInner :
      ∀ m ∈ inner, (Region.inside node).Owns inner m)
    (hMark : m ∈ Mark.around turn inner ending) :
    m.way ∈
      Mark.started (Mark.around turn inner ending) := by
  rw [Mark.started_around, List.mem_cons, List.mem_map]
  simp only [Mark.around, List.mem_cons, List.mem_append,
    List.mem_map] at hMark
  rcases hMark with
    rfl | ⟨below, hBelow, rfl⟩ | ⟨notice, _, rfl⟩
  · exact .inl rfl
  · rcases hInner below hBelow with hWay | ⟨hWay, _⟩
    · exact .inr ⟨below.way, hWay, rfl⟩
    · exact .inl (by simp [Mark.under, hWay])
  · exact .inl rfl

/- Every mark is at a node that has been started. -/
theorem owns
    (hTold : Told routine plan region w o marks) :
    ∀ m ∈ marks, region.Owns marks m := by
  induction hTold with
  | @leaf notices location command w hInner =>
      intro m hMark
      rcases List.mem_map.mp hMark with
        ⟨notice, hNotice, rfl⟩
      exact .inr ⟨rfl, hInner notice hNotice⟩
  | group line hChildren ih =>
      intro m hMark
      exact .inl (ih m hMark)
  | done index w =>
      intro m hMark
      cases hMark
  | next hNode hRest ihNode ihRest =>
      intro m hMark
      simp only [Region.Owns, Mark.started_append,
        List.mem_append]
      rcases List.mem_append.mp hMark with hMark | hMark
      · exact .inl (owned_around _ _ ihNode hMark)
      · exact .inr (ihRest m hMark)
  | stop index rest hNode hStops ihNode =>
      intro m hMark
      exact owned_around _ _ ihNode hMark

end Told

------------------------------------------------------------
-- Starts and Ends
------------------------------------------------------------

namespace Mark

/- A mark is noted in a node, while the node runs. -/
def IsIn
    (way : Way)
    (m : Mark) : Prop :=
  way <+: m.way ∧ (m.way = way → m.notice.isInner = true)

/-
  A node has one start and one end, and all that is noted in
  it stands between the two.
-/
def Encloses
    (marks : List Mark)
    (way : Way) : Prop :=
  ∃ early inside late closing,
    marks =
        early ++
          ⟨way, .starting⟩ ::
            (inside ++ ⟨way, closing⟩ :: late) ∧
      closing.isClosing = true ∧
      (∀ m ∈ inside, m.IsIn way) ∧
      ∀ m ∈ early ++ late, ¬ way <+: m.way

/- A node has a start but no end, and all is noted in it. -/
def LeavesOpen
    (marks : List Mark)
    (way : Way) : Prop :=
  ∃ early inside,
    marks = early ++ ⟨way, .starting⟩ :: inside ∧
      (∀ m ∈ inside, m.IsIn way) ∧
      ∀ m ∈ early, ¬ way <+: m.way

section Frames

variable {way : Way}
variable {marks : List Mark}

/- Marks elsewhere do not come between. -/
theorem Encloses.prepend
    {early : List Mark}
    (hEncloses : Encloses marks way)
    (hEarly : ∀ m ∈ early, ¬ way <+: m.way) :
    Encloses (early ++ marks) way := by
  rcases hEncloses with
    ⟨before, inside, late, closing, rfl, hClosing, hInside,
      hOutside⟩
  refine
    ⟨early ++ before, inside, late, closing, by simp,
      hClosing, hInside, ?_⟩
  intro m hMark
  rw [List.append_assoc] at hMark
  rcases List.mem_append.mp hMark with hMark | hMark
  · exact hEarly m hMark
  · exact hOutside m hMark

theorem Encloses.append
    {late : List Mark}
    (hEncloses : Encloses marks way)
    (hLate : ∀ m ∈ late, ¬ way <+: m.way) :
    Encloses (marks ++ late) way := by
  rcases hEncloses with
    ⟨early, inside, after, closing, rfl, hClosing, hInside,
      hOutside⟩
  refine
    ⟨early, inside, after ++ late, closing, by simp,
      hClosing, hInside, ?_⟩
  intro m hMark
  rw [← List.append_assoc] at hMark
  rcases List.mem_append.mp hMark with hMark | hMark
  · exact hOutside m hMark
  · exact hLate m hMark

theorem LeavesOpen.prepend
    {early : List Mark}
    (hOpen : LeavesOpen marks way)
    (hEarly : ∀ m ∈ early, ¬ way <+: m.way) :
    LeavesOpen (early ++ marks) way := by
  rcases hOpen with
    ⟨before, inside, rfl, hInside, hOutside⟩
  refine
    ⟨early ++ before, inside, by simp, hInside, ?_⟩
  intro m hMark
  rcases List.mem_append.mp hMark with hMark | hMark
  · exact hEarly m hMark
  · exact hOutside m hMark

/- What is apart in a child is apart in the parent. -/
theorem not_prefix_under
    {outside : List Mark}
    (turn : Turn)
    (hOutside : ∀ m ∈ outside, ¬ way <+: m.way) :
    ∀ m ∈ outside.map (under turn),
      ¬ turn :: way <+: m.way := by
  intro m hMark hPrefix
  rcases List.mem_map.mp hMark with ⟨below, hBelow, rfl⟩
  exact
    hOutside below hBelow
      (List.cons_prefix_cons.mp hPrefix).2

/- What is noted in a node is so seen from its parent. -/
theorem isIn_under
    {inside : List Mark}
    (turn : Turn)
    (hInside : ∀ m ∈ inside, m.IsIn way) :
    ∀ m ∈ inside.map (under turn),
      m.IsIn (turn :: way) := by
  intro m hMark
  rcases List.mem_map.mp hMark with ⟨below, hBelow, rfl⟩
  rcases hInside below hBelow with ⟨hPrefix, hInner⟩
  refine ⟨List.cons_prefix_cons.mpr ⟨rfl, hPrefix⟩, ?_⟩
  intro hEqual
  exact hInner (List.cons.inj hEqual).2

theorem Encloses.under
    (turn : Turn)
    (hEncloses : Encloses marks way) :
    Encloses (marks.map (under turn)) (turn :: way) := by
  rcases hEncloses with
    ⟨early, inside, late, closing, rfl, hClosing, hInside,
      hOutside⟩
  refine
    ⟨early.map (Mark.under turn),
      inside.map (Mark.under turn),
      late.map (Mark.under turn), closing, ?_, hClosing,
      isIn_under turn hInside, ?_⟩
  · simp [Mark.under]
  · rw [← List.map_append]
    exact not_prefix_under turn hOutside

theorem LeavesOpen.under
    (turn : Turn)
    (hOpen : LeavesOpen marks way) :
    LeavesOpen (marks.map (under turn)) (turn :: way) := by
  rcases hOpen with
    ⟨early, inside, rfl, hInside, hOutside⟩
  refine
    ⟨early.map (Mark.under turn),
      inside.map (Mark.under turn), ?_,
      isIn_under turn hInside,
      not_prefix_under turn hOutside⟩
  simp [Mark.under]

end Frames

section Children

variable {inner : List Mark}
variable {way : Way}
variable (turn : Turn)

/- What is noted of a child itself is in no node below. -/
theorem not_prefix_child
    (notices : List Notice)
    (hBelow : way ≠ []) :
    ∀ m ∈ notices.map (Mark.mk [turn]),
      ¬ turn :: way <+: m.way := by
  intro m hMark hPrefix
  rcases List.mem_map.mp hMark with ⟨notice, _, rfl⟩
  have hNil := (List.cons_prefix_cons.mp hPrefix).2
  exact hBelow (List.prefix_nil.mp hNil)

/- A node that is closed in a child is in the parent. -/
theorem Encloses.around
    (ending : Ending)
    (hEncloses : Encloses inner way)
    (hBelow : way ≠ []) :
    Encloses (around turn inner ending) (turn :: way) :=
  ((hEncloses.under turn).append
    (not_prefix_child turn ending.notices hBelow)).prepend
      (not_prefix_child turn [.starting] hBelow)

/- A node that is left open in a child is in the parent. -/
theorem LeavesOpen.around
    (hOpen : LeavesOpen inner way)
    (hBelow : way ≠ []) :
    LeavesOpen (around turn inner .dropped)
      (turn :: way) := by
  have hStart := not_prefix_child turn [.starting] hBelow
  have hFrame := (hOpen.under turn).prepend hStart
  rw [← List.append_nil (inner.map _)] at hFrame
  exact hFrame

/- What is noted in a child is noted in it. -/
theorem isIn_child
    (hInner :
      ∀ m ∈ inner, m.way = [] → m.notice.isInner = true) :
    ∀ m ∈ inner.map (under turn), m.IsIn [turn] := by
  apply isIn_under
  intro m hMark
  exact ⟨List.nil_prefix, hInner m hMark⟩

/- A child that comes to an end is closed. -/
theorem encloses_child
    {ending : Ending}
    (hInner :
      ∀ m ∈ inner, m.way = [] → m.notice.isInner = true)
    (hEnds : ending ≠ .dropped) :
    Encloses (around turn inner ending) [turn] := by
  have hClosing :
      ∃ closing,
        ending.notices = [closing] ∧
          closing.isClosing = true := by
    rcases ending with (_ | cause) | _
    · exact ⟨.completed, rfl, rfl⟩
    · exact ⟨.failed cause.message, rfl, rfl⟩
    · exact absurd rfl hEnds
  rcases hClosing with ⟨closing, hNotices, hClosing⟩
  refine
    ⟨[], inner.map (under turn), [], closing, ?_, hClosing,
      isIn_child turn hInner, by simp⟩
  simp [Mark.around, hNotices]

/- A child that is dropped is left open. -/
theorem leavesOpen_child
    (hInner :
      ∀ m ∈ inner, m.way = [] → m.notice.isInner = true) :
    LeavesOpen (around turn inner .dropped) [turn] := by
  refine
    ⟨[], inner.map (under turn), ?_, isIn_child turn hInner,
      by simp⟩
  simp [Mark.around, Ending.notices]

end Children

/-
  A node that is started is closed, unless the run has been
  dropped in it, in the node that is started last.
-/
inductive Brackets
    (ending : Ending)
    (marks : List Mark)
    (way : Way) : Prop where
| leftOpen
    (hDropped : ending = .dropped)
    (hLast : way <+: last marks)
    (hOpen : LeavesOpen marks way)
| closed
    (hElsewhere :
      ending = .dropped → ¬ way <+: last marks)
    (hCloses : Encloses marks way)

end Mark

/- The ways to some nodes lead past the ones before them. -/
theorem Node.apart_of_mem_waysFrom
    {κ : Type}
    {index : Nat}
    {nodes : List (Node κ)}
    {way : Way}
    {turn : Turn}
    (below : Way)
    (hBefore : turn.index < index)
    (hWay : way ∈ waysFrom index nodes) :
    ¬ turn :: below <+: way ∧ ¬ way <+: turn :: below := by
  rcases exists_turn_of_mem_waysFrom hWay with
    ⟨first, rest, rfl, hLe⟩
  have hNe : turn.index ≠ first.index := by omega
  constructor
  · intro hPrefix
    have hTurn := (List.cons_prefix_cons.mp hPrefix).1
    exact hNe (congrArg Turn.index hTurn)
  · intro hPrefix
    have hTurn := (List.cons_prefix_cons.mp hPrefix).1
    exact hNe (congrArg Turn.index hTurn).symm

namespace Told

variable {κ σ : Type}
variable {routine : κ → Routine σ} {plan : Plan}
variable {region : Region κ}
variable {w : World σ}
variable {o : Outcome σ}
variable {marks : List Mark}

/- What a node notes of itself is not about its run. -/
theorem isInner_of_way_eq_nil
    {m : Mark}
    (hTold : Told routine plan region w o marks)
    (hMark : m ∈ marks)
    (hWay : m.way = []) :
    m.notice.isInner = true := by
  have hNotStarted : m.way ∉ Mark.started marks := by
    intro hStarted
    exact
      Region.ne_nil_of_mem_ways
        (hTold.mem_ways_of_mem_started hStarted) hWay
  have hOwns := hTold.owns m hMark
  cases region with
  | inside node =>
      rcases hOwns with hStarted | ⟨_, hInner⟩
      · exact absurd hStarted hNotStarted
      · exact hInner
  | along index nodes => exact absurd hOwns hNotStarted

/- A child and the nodes in it have their brackets. -/
theorem brackets_around
    {node : Node κ}
    (turn : Turn)
    (hNode : Told routine plan (.inside node) w o marks)
    (hBelow :
      ∀ way ∈ Mark.started marks,
        Mark.Brackets o.ending marks way) :
    ∀ way ∈
        Mark.started (Mark.around turn marks o.ending),
      Mark.Brackets o.ending
        (Mark.around turn marks o.ending) way := by
  have hInner :
      ∀ m ∈ marks, m.way = [] → m.notice.isInner = true :=
    fun m hMark hWay =>
      hNode.isInner_of_way_eq_nil hMark hWay
  intro way hWay
  rw [Mark.started_around, List.mem_cons, List.mem_map]
    at hWay
  rcases hWay with rfl | ⟨below, hStarted, rfl⟩
  · by_cases hDropped : o.ending = .dropped
    · refine .leftOpen hDropped ?_ ?_
      · simp [Mark.last_around]
      · rw [hDropped]
        exact Mark.leavesOpen_child turn hInner
    · exact
        .closed (fun h => absurd h hDropped)
          (Mark.encloses_child turn hInner hDropped)
  · have hNe :=
      Region.ne_nil_of_mem_ways
        (hNode.mem_ways_of_mem_started hStarted)
    cases hBelow below hStarted with
    | leftOpen hDropped hLast hOpen =>
        refine .leftOpen hDropped ?_ ?_
        · rw [Mark.last_around]
          exact List.cons_prefix_cons.mpr ⟨rfl, hLast⟩
        · rw [hDropped]
          exact hOpen.around turn hNe
    | closed hElsewhere hCloses =>
        refine .closed ?_ (hCloses.around turn o.ending hNe)
        intro hDropped hLast
        rw [Mark.last_around] at hLast
        exact
          hElsewhere hDropped
            (List.cons_prefix_cons.mp hLast).2

/- Every node that is started has its brackets. -/
theorem brackets
    (hTold : Told routine plan region w o marks) :
    ∀ way ∈ Mark.started marks,
      Mark.Brackets o.ending marks way := by
  induction hTold with
  | leaf location command w hInner =>
      rw [Mark.started_inner [] hInner]
      intro way hWay
      cases hWay
  | group line hChildren ih => exact ih
  | done index w =>
      intro way hWay
      cases hWay
  | @next index node rest w w' o inner later hNode hRest
      ihNode ihRest =>
      let turn : Turn := ⟨index, node.location⟩
      have hApart :
          ∀ way ∈ Mark.started later, ∀ below,
            ¬ turn :: below <+: way ∧
              ¬ way <+: turn :: below :=
        fun way hWay below =>
          Node.apart_of_mem_waysFrom below
            (Nat.lt_succ_self index)
            (hRest.mem_ways_of_mem_started hWay)
      have hLater (hDropped : o.ending = .dropped) :
          Mark.started later ≠ [] :=
        hRest.started_ne_nil (by simp [hDropped])
      intro way hWay
      rw [Mark.started_append, List.mem_append] at hWay
      rcases hWay with hWay | hWay
      -- The run goes on behind the child, so it is closed.
      · rcases Mark.exists_below_of_mem_started_around hWay
          with ⟨below, rfl⟩
        cases hNode.brackets_around turn ihNode _ hWay with
        | leftOpen hDropped hLast hOpen => cases hDropped
        | closed hElsewhere hCloses =>
            refine .closed ?_ ?_
            · intro hDropped
              rw [Mark.last_append _ (hLater hDropped)]
              exact
                (hApart _
                  (Mark.last_mem_started (hLater hDropped))
                  below).1
            · apply hCloses.append
              intro m hMark
              exact (hApart _ (hRest.owns m hMark) below).1
      · have hEarly :
            ∀ m ∈ Mark.around turn inner
                (.finished .succeeded),
              ¬ way <+: m.way := by
          intro m hMark
          rcases Mark.exists_below_of_mem_around hMark with
            ⟨below, hBelow⟩
          rw [hBelow]
          exact (hApart way hWay below).2
        cases ihRest way hWay with
        | leftOpen hDropped hLast hOpen =>
            refine
              .leftOpen hDropped ?_ (hOpen.prepend hEarly)
            rw [Mark.last_append _ (hLater hDropped)]
            exact hLast
        | closed hElsewhere hCloses =>
            refine .closed ?_ (hCloses.prepend hEarly)
            intro hDropped
            rw [Mark.last_append _ (hLater hDropped)]
            exact hElsewhere hDropped
  | stop index rest hNode hStops ihNode =>
      intro way hWay
      cases hNode.brackets_around _ ihNode way hWay with
      | leftOpen hDropped hLast hOpen =>
          exact
            .leftOpen
              (Ending.located_eq_dropped_iff.mpr hDropped)
              hLast hOpen
      | closed hElsewhere hCloses =>
          refine .closed ?_ hCloses
          intro hDropped
          exact
            hElsewhere
              (Ending.located_eq_dropped_iff.mp hDropped)

end Told

end CommandScript
