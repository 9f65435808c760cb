import CommandScript.Shelf
import CommandScript.Proofs.LeastKeys
import CommandScript.Proofs.Markers
import Mathlib.Data.List.Induction

/-
  The registrations of a registry. A registry has those that
  were made on it and, if it is a clone, those that the one
  it was cloned from had by then. Of those of one kind the
  last one counts.

  Key definitions include:
    * `Registration.Makes`
    * `Shelf.count`
    * `Shelf.Inherits`
    * `Shelf.Latest`
    * `Shelf.Reflects`

  Main statements:
    * `Registration.makes_constructor`
    * `Shelf.inherits_concat_iff`
    * `Shelf.Reflects.addTo`
-/

namespace CommandScript

variable {κ : Type}

------------------------------------------------------------
-- Registrations
------------------------------------------------------------

namespace Registration

/- The way commands of a registered kind are made. -/
def constructor : Registration κ → Constructor κ
| .plain _ command => .plain command
| .configurable _ configure => configure

/-
  What parameters come to under a registration. A kind that
  takes no parameters refuses the least one there is.
-/
inductive Makes :
    Registration κ → Params → Attempt ConfigError κ → Prop
| plain
    {kind : String}
    {command : κ}
    {params : Params}
    (hNone : ∀ key, ¬ params.Has key) :
    Makes (.plain kind command) params (.ok command)
| refused
    {kind key : String}
    {command : κ}
    {params : Params}
    (hLeast : Text.IsLeast params.Has key) :
    Makes (.plain kind command) params
      (Attempt.reject (.notConfigurable key))
| configurable
    {kind : String}
    {configure : Constructor κ}
    {params : Params} :
    Makes (.configurable kind configure) params
      (configure params)

theorem makes_constructor
    (g : Registration κ)
    (params : Params) :
    g.Makes params (g.constructor params) := by
  cases g with
  | configurable kind configure => exact .configurable
  | plain kind command =>
      change Makes _ _ (Attempt.ofExcept _)
      cases hDeny : params.denyAll with
      | ok _ =>
          exact .plain (Params.denyAll_eq_ok_iff.mp hDeny)
      | error cause =>
          rcases Params.denyAll_eq_error_iff.mp hDeny with
            ⟨key, rfl, hLeast⟩
          exact .refused hLeast

/- A kind is then made as it has been registered. -/
theorem get?_addTo
    (r : Registry κ)
    (g : Registration κ)
    (kind : String) :
    (g.addTo r).constructors.get? kind =
      if kind = g.kind then some g.constructor
      else r.constructors.get? kind := by
  have hAdded :
      (g.addTo r).constructors =
        r.constructors.insert g.kind g.constructor := by
    cases g <;> rfl
  rw [hAdded]
  by_cases hKind : kind = g.kind
  · rw [hKind, Dictionary.get?_insert_self, if_pos rfl]
  · rw [Dictionary.get?_insert_of_ne _ hKind,
      if_neg hKind]

end Registration

namespace Shelf

------------------------------------------------------------
-- The Number of Registries
------------------------------------------------------------

/- The number of registries after one more task. -/
def Task.countAfter (count : Nat) : Task κ → Nat
| .create => count + 1
| .on slot .clone =>
    if slot < count then count + 1 else count
| .on _ _ => count

/- The number of registries that some tasks make. -/
def count (tasks : List (Task κ)) : Nat :=
  tasks.foldl Task.countAfter 0

theorem count_concat
    (tasks : List (Task κ))
    (task : Task κ) :
    count (tasks ++ [task]) =
      task.countAfter (count tasks) := by
  rw [count, List.foldl_append]
  rfl

/- No registry is taken away. -/
theorem le_countAfter
    (number : Nat)
    (task : Task κ) :
    number ≤ task.countAfter number := by
  unfold Task.countAfter
  repeat' split
  all_goals omega

theorem count_le_append
    (early late : List (Task κ)) :
    count early ≤ count (early ++ late) := by
  induction late using List.reverseRecOn with
  | nil => simp
  | append_singleton late task ih =>
      rw [← List.append_assoc, count_concat]
      exact Nat.le_trans ih (le_countAfter _ task)

------------------------------------------------------------
-- Inherited Registrations
------------------------------------------------------------

/-
  After some tasks the registry in a slot has a registration
  that was made next after the first of them. Either it was
  made in that slot, or the registry is a clone of one that
  had it when the clone was made.
-/
inductive Inherits
    (before : List (Task κ))
    (g : Registration κ) :
    List (Task κ) → Nat → Prop
| own
    {slot : Nat}
    {after : List (Task κ)}
    (hSlot : slot < count before) :
    Inherits before g
      (before ++ .on slot (.register g) :: after) slot
| cloned
    {tasks after : List (Task κ)}
    {origin : Nat}
    (hOrigin : origin < count tasks)
    (hInherits : Inherits before g tasks origin) :
    Inherits before g
      (tasks ++ .on origin .clone :: after) (count tasks)

namespace Inherits

variable {before tasks : List (Task κ)}
variable {g : Registration κ}
variable {slot : Nat}

/- What a registry has it keeps. -/
theorem later
    (hInherits : Inherits before g tasks slot)
    (late : List (Task κ)) :
    Inherits before g (tasks ++ late) slot := by
  cases hInherits with
  | own hSlot =>
      rw [List.append_assoc, List.cons_append]
      exact .own hSlot
  | cloned hOrigin hOld =>
      rw [List.append_assoc, List.cons_append]
      exact .cloned hOrigin hOld

/- A registration is one of the tasks. -/
theorem exists_split
    (hInherits : Inherits before g tasks slot) :
    ∃ made after,
      tasks = before ++ .on made (.register g) :: after := by
  induction hInherits with
  | @own slot after hSlot => exact ⟨slot, after, rfl⟩
  | @cloned tasks late origin hOrigin hOld ih =>
      rcases ih with ⟨made, after, rfl⟩
      refine ⟨made, after ++ .on origin .clone :: late, ?_⟩
      simp

theorem length_lt
    (hInherits : Inherits before g tasks slot) :
    before.length < tasks.length := by
  rcases hInherits.exists_split with ⟨made, after, rfl⟩
  simp

/- Two registrations made at one time are the same. -/
theorem unique
    {before' : List (Task κ)}
    {g' : Registration κ}
    {slot' : Nat}
    (hInherits : Inherits before g tasks slot)
    (hInherits' : Inherits before' g' tasks slot')
    (hLength : before.length = before'.length) :
    before = before' ∧ g = g' := by
  rcases hInherits.exists_split with ⟨made, after, hTasks⟩
  rcases hInherits'.exists_split with
    ⟨made', after', hTasks'⟩
  rw [hTasks] at hTasks'
  rcases List.append_inj hTasks' hLength with
    ⟨rfl, hRest⟩
  cases hRest
  exact ⟨rfl, rfl⟩

end Inherits

/-
  One more task gives a registry the registration that it
  makes there, or it makes the registry as a clone with all
  that its origin has.
-/
theorem inherits_concat_iff
    {before tasks : List (Task κ)}
    {g : Registration κ}
    {task : Task κ}
    {slot : Nat} :
    Inherits before g (tasks ++ [task]) slot ↔
      Inherits before g tasks slot ∨
        (before = tasks ∧
          slot < count tasks ∧
            task = .on slot (.register g)) ∨
        ∃ origin,
          task = .on origin .clone ∧
            origin < count tasks ∧
            slot = count tasks ∧
            Inherits before g tasks origin := by
  constructor
  · intro hInherits
    generalize hAll : tasks ++ [task] = all at hInherits
    cases hInherits with
    | own hSlot =>
        rcases concat_eq_split_iff.mp hAll with
          ⟨rfl, rfl, rfl⟩ | ⟨rest, rfl, rfl⟩
        · exact .inr (.inl ⟨rfl, hSlot, rfl⟩)
        · exact .inl (.own hSlot)
    | @cloned early after origin hOrigin hOld =>
        rcases concat_eq_split_iff.mp hAll with
          ⟨rfl, rfl, rfl⟩ | ⟨rest, rfl, rfl⟩
        · exact
            .inr (.inr ⟨origin, rfl, hOrigin, rfl, hOld⟩)
        · exact .inl (.cloned hOrigin hOld)
  · intro hCases
    rcases hCases with
      hOld | ⟨rfl, hSlot, rfl⟩ |
      ⟨origin, rfl, hOrigin, rfl, hOld⟩
    · exact hOld.later [task]
    · exact .own hSlot
    · exact .cloned hOrigin hOld

/- Only registries that have been made have anything. -/
theorem Inherits.lt_count
    {before tasks : List (Task κ)}
    {g : Registration κ}
    {slot : Nat}
    (hInherits : Inherits before g tasks slot) :
    slot < count tasks := by
  cases hInherits with
  | @own slot after hSlot =>
      exact
        Nat.lt_of_lt_of_le hSlot (count_le_append before _)
  | @cloned tasks after origin hOrigin hOld =>
      have hMade :
          count (tasks ++ [.on origin .clone]) =
            count tasks + 1 := by
        rw [count_concat]
        exact if_pos hOrigin
      have hLe :=
        count_le_append (tasks ++ [.on origin .clone]) after
      rw [hMade, List.append_assoc] at hLe
      exact hLe

section Concat

variable {before tasks : List (Task κ)}
variable {g : Registration κ}

/- A task makes no difference to the other registries. -/
theorem inherits_concat_of_other
    {task : Task κ}
    {slot : Nat}
    (hSlot : slot < count tasks)
    (hOther : task ≠ .on slot (.register g)) :
    Inherits before g (tasks ++ [task]) slot ↔
      Inherits before g tasks slot := by
  rw [inherits_concat_iff]
  constructor
  · intro hCases
    rcases hCases with
      hOld | ⟨_, _, hTask⟩ | ⟨_, _, _, rfl, _⟩
    · exact hOld
    · exact absurd hTask hOther
    · exact absurd hSlot (Nat.lt_irrefl _)
  · exact Or.inl

/- A clone starts with what its origin has. -/
theorem inherits_concat_clone
    {origin : Nat}
    (hOrigin : origin < count tasks) :
    Inherits before g (tasks ++ [.on origin .clone])
        (count tasks) ↔
      Inherits before g tasks origin := by
  rw [inherits_concat_iff]
  constructor
  · intro hCases
    rcases hCases with
      hOld | ⟨_, _, hTask⟩ | ⟨_, hTask, _, _, hOld⟩
    · exact absurd hOld.lt_count (Nat.lt_irrefl _)
    · cases hTask
    · cases hTask
      exact hOld
  · intro hOld
    exact .inr (.inr ⟨origin, rfl, hOrigin, rfl, hOld⟩)

/- A registry that is no clone starts with nothing. -/
theorem not_inherits_concat_create :
    ¬ Inherits before g (tasks ++ [.create])
        (count tasks) := by
  intro hInherits
  rcases inherits_concat_iff.mp hInherits with
    hOld | ⟨_, hLess, _⟩ | ⟨_, hTask, _⟩
  · exact Nat.lt_irrefl _ hOld.lt_count
  · exact Nat.lt_irrefl _ hLess
  · cases hTask

end Concat

/-
  The last registration of its kind among those that a
  registry has.
-/
structure Latest
    (before : List (Task κ))
    (g : Registration κ)
    (tasks : List (Task κ))
    (slot : Nat) : Prop where
  inherits : Inherits before g tasks slot
  last :
    ∀ before' g',
      Inherits before' g' tasks slot → g'.kind = g.kind →
        before'.length ≤ before.length

/- There is only one last registration of a kind. -/
theorem Latest.unique
    {before before' tasks : List (Task κ)}
    {g g' : Registration κ}
    {slot : Nat}
    (hLatest : Latest before g tasks slot)
    (hLatest' : Latest before' g' tasks slot)
    (hKind : g.kind = g'.kind) :
    g = g' := by
  have hLe :=
    hLatest.last before' g' hLatest'.inherits hKind.symm
  have hGe := hLatest'.last before g hLatest.inherits hKind
  exact
    (hLatest.inherits.unique hLatest'.inherits
      (Nat.le_antisymm hGe hLe)).2

------------------------------------------------------------
-- Registries and Their Registrations
------------------------------------------------------------

/-
  A registry is what its registrations make of it: under
  each kind it has the constructor of the last one, and none
  if there is none.
-/
def Reflects
    (r : Registry κ)
    (tasks : List (Task κ))
    (slot : Nat) : Prop :=
  ∀ kind,
    ((∀ before g,
        Inherits before g tasks slot → g.kind ≠ kind) ∧
      r.constructors.get? kind = none) ∨
    ∃ before g,
      Latest before g tasks slot ∧
        g.kind = kind ∧
        r.constructors.get? kind = some g.constructor

namespace Reflects

variable {r : Registry κ}
variable {tasks : List (Task κ)}
variable {slot : Nat}

/- It does not matter where registrations come from. -/
theorem congr
    {tasks' : List (Task κ)}
    {slot' : Nat}
    (hSame :
      ∀ before g,
        Inherits before g tasks' slot' ↔
          Inherits before g tasks slot)
    (hReflects : Reflects r tasks slot) :
    Reflects r tasks' slot' := by
  intro kind
  rcases hReflects kind with
    ⟨hNone, hGet⟩ | ⟨before, g, hLatest, hKind, hGet⟩
  · refine .inl ⟨?_, hGet⟩
    intro before g hInherits
    exact hNone before g ((hSame before g).mp hInherits)
  · refine .inr ⟨before, g, ⟨?_, ?_⟩, hKind, hGet⟩
    · exact (hSame before g).mpr hLatest.inherits
    · intro before' g' hInherits'
      exact
        hLatest.last before' g'
          ((hSame before' g').mp hInherits')

/- A new registration is the last one of its kind. -/
theorem addTo
    (g : Registration κ)
    (hSlot : slot < count tasks)
    (hReflects : Reflects r tasks slot) :
    Reflects (g.addTo r)
      (tasks ++ [.on slot (.register g)]) slot := by
  have hCases
      {before : List (Task κ)}
      {g' : Registration κ}
      (hInherits :
        Inherits before g'
          (tasks ++ [.on slot (.register g)]) slot) :
      Inherits before g' tasks slot ∨
        (before = tasks ∧ g' = g) := by
    rcases inherits_concat_iff.mp hInherits with
      hOld | ⟨rfl, _, hTask⟩ | ⟨_, hTask, _⟩
    · exact .inl hOld
    · cases hTask
      exact .inr ⟨rfl, rfl⟩
    · cases hTask
  intro kind
  rw [Registration.get?_addTo]
  by_cases hKind : kind = g.kind
  · rw [if_pos hKind]
    refine
      .inr ⟨tasks, g, ⟨.own hSlot, ?_⟩, hKind.symm, rfl⟩
    intro before' g' hInherits' _
    rcases hCases hInherits' with hOld | ⟨rfl, _⟩
    · exact Nat.le_of_lt hOld.length_lt
    · exact Nat.le_refl _
  · rw [if_neg hKind]
    rcases hReflects kind with
      ⟨hNone, hGet⟩ | ⟨before, old, hLatest, rfl, hGet⟩
    · refine .inl ⟨?_, hGet⟩
      intro before' g' hInherits'
      rcases hCases hInherits' with hOld | ⟨_, rfl⟩
      · exact hNone before' g' hOld
      · exact fun hSame => hKind hSame.symm
    · refine
        .inr
          ⟨before, old, ⟨hLatest.inherits.later _, ?_⟩,
            rfl, hGet⟩
      intro before' g' hInherits' hSame
      rcases hCases hInherits' with hOld | ⟨_, rfl⟩
      · exact hLatest.last before' g' hOld hSame
      · exact absurd hSame.symm hKind

/- The registry has the kinds that were registered. -/
theorem contains_iff
    (hReflects : Reflects r tasks slot)
    {kind : String} :
    r.contains kind = true ↔
      ∃ before g,
        Inherits before g tasks slot ∧ g.kind = kind := by
  unfold Registry.contains Dictionary.contains
  rcases hReflects kind with
    ⟨hNone, hGet⟩ | ⟨before, g, hLatest, hKind, hGet⟩
  · rw [hGet]
    constructor
    · nofun
    · rintro ⟨before, g, hInherits, hKind⟩
      exact absurd hKind (hNone before g hInherits)
  · rw [hGet]
    exact
      iff_of_true rfl ⟨before, g, hLatest.inherits, hKind⟩

/- There is a last registration of each kind. -/
theorem exists_latest
    (hReflects : Reflects r tasks slot)
    {kind : String}
    (hKind : r.contains kind = true) :
    ∃ before g,
      Latest before g tasks slot ∧ g.kind = kind := by
  rcases hReflects kind with
    ⟨_, hGet⟩ | ⟨before, g, hLatest, hSame, _⟩
  · unfold Registry.contains Dictionary.contains at hKind
    rw [hGet] at hKind
    cases hKind
  · exact ⟨before, g, hLatest, hSame⟩

/- Commands are made as the last registration says. -/
theorem construct_of_latest
    {before : List (Task κ)}
    {g : Registration κ}
    (hReflects : Reflects r tasks slot)
    (hLatest : Latest before g tasks slot)
    (params : Params) :
    r.construct g.kind params =
      some (g.constructor params) := by
  unfold Registry.construct
  rcases hReflects g.kind with
    ⟨hNone, _⟩ | ⟨before', g', hLatest', hKind, hGet⟩
  · exact absurd rfl (hNone before g hLatest.inherits)
  · rw [hGet, hLatest'.unique hLatest hKind]
    rfl

end Reflects

end Shelf

end CommandScript
