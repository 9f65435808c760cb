import CommandScript.Proofs.Inheritance

/-
  The registries of a shelf over a whole history. Each task
  does one thing, and whatever is done, a registry reflects
  the registrations that it has.

  Key definitions include:
    * `Shelf.Moves`
    * `Shelf.IsMap`

  Main statements:
    * `Shelf.moves_perform`
    * `Shelf.Moves.reflects`
    * `Shelf.reflects_history`
    * `Shelf.registries_are_maps`
-/

namespace CommandScript

variable {κ : Type}

------------------------------------------------------------
-- Logs of Readings
------------------------------------------------------------

/- No command or tree is noted as a registration. -/
theorem Language.not_replaced_of_mem_log
    {l : Language κ}
    {text : String}
    {entry : Entry}
    (hEntry : entry ∈ l.log text)
    (kind : String) :
    entry.notice ≠ .replaced kind := by
  have hLine
      {line : Nat × List Char}
      (hEntry : entry ∈ l.lineLog line) :
      entry.notice ≠ .replaced kind := by
    unfold Language.lineLog at hEntry
    repeat' split at hEntry
    · rw [List.mem_singleton.mp hEntry]
      nofun
    all_goals cases hEntry
  have hLines
      {lines : List (Nat × List Char)}
      (hEntry : entry ∈ lines.flatMap l.lineLog) :
      entry.notice ≠ .replaced kind := by
    rcases List.mem_flatMap.mp hEntry with ⟨line, _, hEntry⟩
    exact hLine hEntry
  unfold Language.log at hEntry
  dsimp only at hEntry
  split at hEntry
  · rcases List.mem_append.mp hEntry with hEntry | hEntry
    · exact hLines hEntry
    · rw [List.mem_singleton.mp hEntry]
      nofun
  · exact hLines hEntry
  · exact hLines hEntry
  · cases hEntry

namespace Shelf

------------------------------------------------------------
-- What a Task Does
------------------------------------------------------------

/- Nothing is done with a registry that is not there. -/
theorem perform_of_missing
    {s : Shelf κ}
    {slot : Nat}
    (hSlot : s.registries[slot]? = none)
    (deed : Deed κ) :
    s.perform (.on slot deed) = (s, .missing) := by
  simp only [perform, hSlot]

theorem perform_of_found
    {s : Shelf κ}
    {slot : Nat}
    {r : Registry κ}
    (hSlot : s.registries[slot]? = some r)
    (deed : Deed κ) :
    s.perform (.on slot deed) = s.act slot r deed := by
  simp only [perform, hSlot]

/-
  What a task makes of a shelf. Each task does one thing: it
  adds a registry, registers a kind with one, adds a tree,
  or changes nothing.
-/
inductive Moves (s : Shelf κ) : Task κ → Shelf κ → Prop
| created :
    Moves s .create
      { s with registries := s.registries ++ [.empty] }
| missing
    {slot : Nat}
    {deed : Deed κ}
    (hSlot : s.registries[slot]? = none) :
    Moves s (.on slot deed) s
| registered
    {slot : Nat}
    {r : Registry κ}
    {g : Registration κ}
    (hSlot : s.registries[slot]? = some r) :
    Moves s (.on slot (.register g))
      { s with
        registries := s.registries.set slot (g.addTo r)
        log := s.log ++ r.registrationLog g.kind }
| cloned
    {slot : Nat}
    {r : Registry κ}
    (hSlot : s.registries[slot]? = some r) :
    Moves s (.on slot .clone)
      { s with registries := s.registries ++ [r] }
| asked
    {slot : Nat}
    {question : Registry.Question} :
    Moves s (.on slot (.ask question)) s
| parsed
    {slot : Nat}
    {dialect : Dialect}
    {text : String}
    {trees : List (Group κ)}
    {noted : List Entry}
    (hTrees : s.trees <+: trees)
    (hNoted :
      ∀ entry ∈ noted,
        ∀ kind, entry.notice ≠ .replaced kind) :
    Moves s (.on slot (.parse dialect text))
      { s with trees := trees, log := s.log ++ noted }

theorem moves_perform
    (s : Shelf κ)
    (task : Task κ) :
    Moves s task (s.perform task).1 := by
  cases task with
  | create => exact .created
  | on slot deed =>
      cases hSlot : s.registries[slot]? with
      | none =>
          rw [perform_of_missing hSlot]
          exact .missing hSlot
      | some r =>
          rw [perform_of_found hSlot]
          cases deed with
          | register g => exact .registered hSlot
          | clone => exact .cloned hSlot
          | ask question => exact .asked
          | parse dialect text =>
              refine
                .parsed ?_ fun _ hEntry =>
                  Language.not_replaced_of_mem_log hEntry
              split
              · exact List.prefix_append _ _
              · exact List.prefix_refl _

/- There are as many registries as have been made. -/
theorem Moves.length_eq
    {s after : Shelf κ}
    {task : Task κ}
    (hMoves : s.Moves task after) :
    after.registries.length =
      task.countAfter s.registries.length := by
  cases hMoves with
  | created => simp [Task.countAfter]
  | @missing slot deed hSlot =>
      have hLe := List.getElem?_eq_none_iff.mp hSlot
      cases deed with
      | clone => simp [Task.countAfter, hLe]
      | register g | ask question
      | parse dialect text => rfl
  | registered hSlot => simp [Task.countAfter]
  | cloned hSlot =>
      rcases List.getElem?_eq_some_iff.mp hSlot with
        ⟨hLess, _⟩
      simp [Task.countAfter, hLess]
  | asked | parsed hTrees hNoted => rfl

------------------------------------------------------------
-- Registries after a Task
------------------------------------------------------------

/- A task that registers a kind with one registry. -/
def Task.RegistersAt
    (slot : Nat)
    (task : Task κ) : Prop :=
  ∃ g, task = .on slot (.register g)

section Step

variable {s after : Shelf κ}
variable {slot : Nat}
variable {r : Registry κ}
variable {task : Task κ}

/- Only a registration changes a registry. -/
theorem Moves.registry_eq
    (hMoves : s.Moves task after)
    (hSlot : s.registries[slot]? = some r)
    (hOther : ¬ task.RegistersAt slot) :
    after.registries[slot]? = some r := by
  have hLess : slot < s.registries.length :=
    (List.getElem?_eq_some_iff.mp hSlot).1
  have hAppend (added : Registry κ) :
      (s.registries ++ [added])[slot]? = some r := by
    rw [List.getElem?_append_left hLess, hSlot]
  cases hMoves with
  | created => exact hAppend .empty
  | cloned hOrigin => exact hAppend _
  | missing hMissing => exact hSlot
  | asked | parsed hTrees hNoted => exact hSlot
  | @registered target old g hTarget =>
      have hNe : target ≠ slot := by
        rintro rfl
        exact hOther ⟨g, rfl⟩
      change (s.registries.set _ _)[slot]? = _
      rw [List.getElem?_set_ne hNe, hSlot]

/- A registration is added to the registry it is made on. -/
theorem Moves.registry_addTo
    {g : Registration κ}
    (hMoves : s.Moves (.on slot (.register g)) after)
    (hSlot : s.registries[slot]? = some r) :
    after.registries[slot]? = some (g.addTo r) := by
  have hLess := (List.getElem?_eq_some_iff.mp hSlot).1
  cases hMoves with
  | missing hMissing =>
      rw [hMissing] at hSlot
      cases hSlot
  | registered hFound =>
      rw [hFound] at hSlot
      cases hSlot
      exact List.getElem?_set_self hLess

/- A new registry is empty, or the same as its origin. -/
theorem Moves.new
    (hMoves : s.Moves task after)
    (hSlot : s.registries[slot]? = none)
    (hNew : after.registries[slot]? = some r) :
    slot = s.registries.length ∧
      (task = .create ∧ r = .empty ∨
        ∃ origin,
          task = .on origin .clone ∧
            s.registries[origin]? = some r) := by
  have hLe := List.getElem?_eq_none_iff.mp hSlot
  have hLast
      {added : Registry κ}
      (hAdded :
        (s.registries ++ [added])[slot]? = some r) :
      slot = s.registries.length ∧ added = r := by
    rw [List.getElem?_append_right hLe,
      List.getElem?_singleton] at hAdded
    split at hAdded
    · exact ⟨by omega, Option.some.inj hAdded⟩
    · cases hAdded
  cases hMoves with
  | created =>
      rcases hLast hNew with ⟨hLength, rfl⟩
      exact ⟨hLength, .inl ⟨rfl, rfl⟩⟩
  | @cloned origin old hOrigin =>
      rcases hLast hNew with ⟨hLength, rfl⟩
      exact ⟨hLength, .inr ⟨origin, rfl, hOrigin⟩⟩
  | missing hMissing =>
      rw [hSlot] at hNew
      cases hNew
  | asked | parsed hTrees hNoted =>
      rw [hSlot] at hNew
      cases hNew
  | registered hTarget =>
      have hLess := (List.getElem?_eq_some_iff.mp hNew).1
      rw [List.length_set] at hLess
      omega

/- Whatever is next, registries reflect what is done. -/
theorem Moves.reflects
    {tasks : List (Task κ)}
    (hMoves : s.Moves task after)
    (hCount : s.registries.length = count tasks)
    (hReflects :
      ∀ slot r,
        s.registries[slot]? = some r →
          Reflects r tasks slot)
    (hNew : after.registries[slot]? = some r) :
    Reflects r (tasks ++ [task]) slot := by
  cases hSlot : s.registries[slot]? with
  | some old =>
      have hLess := (List.getElem?_eq_some_iff.mp hSlot).1
      by_cases hRegisters : task.RegistersAt slot
      · rcases hRegisters with ⟨g, rfl⟩
        rw [hMoves.registry_addTo hSlot] at hNew
        cases hNew
        exact
          (hReflects slot old hSlot).addTo g
            (by omega)
      · rw [hMoves.registry_eq hSlot hRegisters] at hNew
        cases hNew
        apply Reflects.congr _ (hReflects slot r hSlot)
        intro before g
        apply inherits_concat_of_other (by omega)
        rintro rfl
        exact hRegisters ⟨g, rfl⟩
  | none =>
      rcases hMoves.new hSlot hNew with
        ⟨hLength, ⟨rfl, rfl⟩ | ⟨origin, rfl, hOrigin⟩⟩
      · rw [hLength, hCount]
        intro kind
        refine .inl ⟨?_, rfl⟩
        intro before g hInherits
        exact absurd hInherits not_inherits_concat_create
      · have hLess :=
          (List.getElem?_eq_some_iff.mp hOrigin).1
        rw [hLength, hCount]
        apply Reflects.congr _ (hReflects origin r hOrigin)
        intro before g
        exact inherits_concat_clone (by omega)

/- Trees are only added. -/
theorem Moves.trees_extended
    (hMoves : s.Moves task after) :
    s.trees <+: after.trees := by
  cases hMoves with
  | parsed hTrees hNoted => exact hTrees
  | missing hSlot => exact List.prefix_refl _
  | registered hSlot | cloned hSlot =>
      exact List.prefix_refl _
  | created | asked => exact List.prefix_refl _

/- A registration notes what it replaces. -/
theorem Moves.log_register
    {g : Registration κ}
    (hMoves : s.Moves (.on slot (.register g)) after)
    (hSlot : s.registries[slot]? = some r) :
    after.log = s.log ++ r.registrationLog g.kind := by
  cases hMoves with
  | missing hMissing =>
      rw [hMissing] at hSlot
      cases hSlot
  | registered hFound =>
      rw [hFound] at hSlot
      cases hSlot
      rfl

/- Nothing else notes that something is replaced. -/
theorem Moves.log_of_other
    (hMoves : s.Moves task after)
    (hOther : ∀ slot, ¬ task.RegistersAt slot) :
    ∃ noted,
      after.log = s.log ++ noted ∧
        ∀ entry ∈ noted,
          ∀ kind, entry.notice ≠ .replaced kind := by
  have hNothing :
      ∃ noted,
        s.log = s.log ++ noted ∧
          ∀ entry ∈ noted,
            ∀ kind, entry.notice ≠ .replaced kind :=
    ⟨[], by simp, nofun⟩
  cases hMoves with
  | parsed hTrees hNoted => exact ⟨_, rfl, hNoted⟩
  | @registered slot old g hSlot =>
      exact absurd ⟨g, rfl⟩ (hOther slot)
  | missing hSlot => exact hNothing
  | cloned hSlot => exact hNothing
  | created | asked => exact hNothing

end Step

------------------------------------------------------------
-- Histories
------------------------------------------------------------

theorem history_concat
    (tasks : List (Task κ))
    (task : Task κ) :
    history (tasks ++ [task]) =
      ((history tasks).perform task).1 :=
  Steps.after_concat perform empty tasks task

theorem length_history
    (tasks : List (Task κ)) :
    (history tasks).registries.length = count tasks := by
  induction tasks using List.reverseRecOn with
  | nil => rfl
  | append_singleton tasks task ih =>
      have hLength :=
        ((history tasks).moves_perform task).length_eq
      rw [history_concat, hLength, ih, count_concat]

/- A registry that no task registers with stays the same. -/
theorem registry_of_later
    {early late : List (Task κ)}
    {slot : Nat}
    {r : Registry κ}
    (hSlot : (history early).registries[slot]? = some r)
    (hOther : ∀ task ∈ late, ¬ task.RegistersAt slot) :
    (history (early ++ late)).registries[slot]? =
      some r := by
  refine
    Steps.after_append_keeps
      (P := fun s : Shelf κ => s.registries[slot]? = some r)
      ?_ hSlot
  intro task hTask s hFound
  exact
    (s.moves_perform task).registry_eq hFound
      (hOther task hTask)

theorem trees_of_later
    (early late : List (Task κ)) :
    (history early).trees <+:
      (history (early ++ late)).trees := by
  refine
    Steps.after_append_keeps
      (P := fun s : Shelf κ =>
        (history early).trees <+: s.trees)
      ?_ List.prefix_rfl
  intro task _ s hPrefix
  exact hPrefix.trans (s.moves_perform task).trees_extended

/- Every registry reflects what has been registered. -/
theorem reflects_history
    {tasks : List (Task κ)}
    {slot : Nat}
    {r : Registry κ}
    (hSlot : (history tasks).registries[slot]? = some r) :
    Reflects r tasks slot := by
  induction tasks using List.reverseRecOn
    generalizing slot r with
  | nil => cases hSlot
  | append_singleton tasks task ih =>
      rw [history_concat] at hSlot
      exact
        ((history tasks).moves_perform task).reflects
          (length_history tasks) (fun _ _ hOld => ih hOld)
          hSlot

/- What the registry in a slot answers. -/
def ask
    (s : Shelf κ)
    (slot : Nat)
    (question : Registry.Question) : Reply κ :=
  (s.perform (.on slot (.ask question))).2

theorem ask_of_found
    {s : Shelf κ}
    {slot : Nat}
    {r : Registry κ}
    (hSlot : s.registries[slot]? = some r)
    (question : Registry.Question) :
    s.ask slot question = .answered (r.answer question) := by
  rw [ask, perform_of_found hSlot]
  rfl

/-
  The answers of a finite map in which the last registration
  wins. It lists some kinds in the strict order of their
  bytes, which are the ones it has registrations of. It says
  so when asked for a kind, and makes commands of no others.
  A command is made as the last registration of its kind
  says: a plain one if there are no parameters at all, a
  configurable one as it is configured.
-/
structure IsMap
    (s : Shelf κ)
    (tasks : List (Task κ))
    (slot : Nat)
    (kinds : List String) : Prop where
  names : s.ask slot .kinds = .answered (.names kinds)
  ordered :
    kinds.Pairwise fun kind kind' =>
      Text.bytes kind < Text.bytes kind'
  mem_iff :
    ∀ kind,
      kind ∈ kinds ↔
        ∃ before g,
          Inherits before g tasks slot ∧ g.kind = kind
  number :
    s.ask slot .size = .answered (.number kinds.length)
  nothing :
    s.ask slot .isEmpty =
      .answered (.truth (decide (kinds = [])))
  found :
    ∀ kind,
      s.ask slot (.contains kind) =
        .answered (.truth (decide (kind ∈ kinds)))
  unknown :
    ∀ kind params,
      kind ∉ kinds →
        s.ask slot (.construct kind params) =
          .answered (.made none)
  made :
    ∀ kind ∈ kinds,
      ∃ before g,
        Latest before g tasks slot ∧
          g.kind = kind ∧
          ∀ params,
            ∃ result,
              g.Makes params result ∧
                s.ask slot (.construct kind params) =
                  .answered (.made (some result))

theorem isMap_of_reflects
    {s : Shelf κ}
    {tasks : List (Task κ)}
    {slot : Nat}
    {r : Registry κ}
    (hSlot : s.registries[slot]? = some r)
    (hReflects : Reflects r tasks slot) :
    IsMap s tasks slot r.kinds := by
  have hMem (kind : String) :
      kind ∈ r.kinds ↔ r.contains kind = true :=
    Dictionary.mem_keys_iff
  constructor
  case names => exact ask_of_found hSlot .kinds
  case ordered =>
    apply r.constructors.pairwise_keys.imp
    exact Text.bytes_lt_iff.mpr
  case mem_iff =>
    intro kind
    rw [hMem, hReflects.contains_iff]
  case number =>
    rw [ask_of_found hSlot]
    simp [Registry.answer, Registry.size, Registry.kinds,
      Dictionary.size, Dictionary.keys]
  case nothing =>
    rw [ask_of_found hSlot]
    unfold Registry.answer Registry.isEmpty Registry.kinds
      Dictionary.isEmpty Dictionary.keys
    cases r.constructors.toList <;> rfl
  case found =>
    intro kind
    rw [ask_of_found hSlot]
    simp [Registry.answer, hMem]
  case unknown =>
    intro kind params hKind
    rw [ask_of_found hSlot]
    have hNone : r.construct kind params = none := by
      rw [hMem, Bool.not_eq_true] at hKind
      exact Registry.construct_eq_none_iff.mpr hKind
    simp only [Registry.answer, hNone]
  case made =>
    intro kind hKind
    rcases hReflects.exists_latest ((hMem kind).mp hKind)
      with ⟨before, g, hLatest, rfl⟩
    refine ⟨before, g, hLatest, rfl, ?_⟩
    intro params
    refine
      ⟨g.constructor params, g.makes_constructor params, ?_⟩
    rw [ask_of_found hSlot]
    simp only [Registry.answer,
      hReflects.construct_of_latest hLatest params]

/-
  Every registry is a finite map in which the last
  registration wins, whatever has been done at the shelf. As
  long as nothing more is registered with the registry
  itself its answers stay the same, and trees that have been
  read stay the same anyway. A registration is noted as a
  replacement if the registry has one of that kind already,
  and nothing else is noted as one.
-/
theorem registries_are_maps
    (tasks : List (Task κ))
    (slot : Nat)
    (hSlot : slot < count tasks) :
    let s : Shelf κ := history tasks
    (∃ kinds, IsMap s tasks slot kinds) ∧
    (∀ late : List (Task κ),
      s.trees <+: (history (tasks ++ late)).trees ∧
        ((∀ task ∈ late, ¬ task.RegistersAt slot) →
          ∀ question,
            (history (tasks ++ late)).ask slot question =
              s.ask slot question)) ∧
    (∀ g : Registration κ,
      let after : Shelf κ :=
        history (tasks ++ [.on slot (.register g)])
      let Has : Prop :=
        ∃ before old,
          Inherits before old tasks slot ∧ old.kind = g.kind
      (Has →
          after.log = s.log ++ [⟨.replaced g.kind, []⟩]) ∧
        (¬ Has → after.log = s.log)) ∧
    ∀ task : Task κ,
      (∀ slot, ¬ task.RegistersAt slot) →
        ∃ noted,
          (history (tasks ++ [task])).log = s.log ++ noted ∧
            ∀ entry ∈ noted,
              ∀ kind, entry.notice ≠ .replaced kind := by
  intro s
  have hLength : slot < s.registries.length := by
    rw [length_history]
    exact hSlot
  have hFound :
      s.registries[slot]? = some s.registries[slot] :=
    List.getElem?_eq_getElem hLength
  generalize s.registries[slot] = r at hFound
  have hReflects : Reflects r tasks slot :=
    reflects_history hFound
  refine ⟨⟨r.kinds, isMap_of_reflects hFound hReflects⟩,
    ?_, ?_, ?_⟩
  · intro late
    refine ⟨trees_of_later tasks late, ?_⟩
    intro hOther question
    rw [ask_of_found (registry_of_later hFound hOther),
      ask_of_found hFound]
  · intro g after Has
    have hLog :
        after.log = s.log ++ r.registrationLog g.kind := by
      simp only [after, history_concat]
      exact (s.moves_perform _).log_register hFound
    have hKnown : r.contains g.kind = true ↔ Has :=
      hReflects.contains_iff
    unfold Registry.registrationLog at hLog
    constructor
    · intro hHas
      rw [hLog, if_pos (hKnown.mpr hHas)]
    · intro hNew
      rw [hLog, if_neg (hNew ∘ hKnown.mp), List.append_nil]
  · intro task hOther
    rw [history_concat]
    exact (s.moves_perform task).log_of_other hOther

/- A clone that registers a kind anew, and its origin. -/
theorem registries_are_maps_of_clone :
    let tasks : List (Task Nat) :=
      [ .create,
        .on 0 (.register (.plain "rest" 7)),
        .on 0 .clone,
        .on 1
          (.register
            (.configurable "rest" fun params =>
              .ok params.size)) ]
    let late : List (Task Nat) :=
      [.on 0 (.register (.plain "work" 8))]
    1 < count tasks ∧
      (∃ kinds, IsMap (history tasks) tasks 1 kinds) ∧
      ∀ question,
        (history (tasks ++ late)).ask 1 question =
          (history tasks).ask 1 question := by
  intro tasks late
  have hSlot : 1 < count tasks := by decide
  rcases registries_are_maps tasks 1 hSlot with
    ⟨hMap, hLate, _⟩
  refine ⟨hSlot, hMap, (hLate late).2 ?_⟩
  intro task hTask
  rw [List.mem_singleton.mp hTask]
  rintro ⟨g, hRegister⟩
  cases hRegister

end Shelf

end CommandScript
