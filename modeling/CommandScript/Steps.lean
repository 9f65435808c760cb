/-
  Steps one after another. A step makes of a state and a
  task the next state and a reply; what follows is shared by
  everything that is used in such steps.

  Key definitions include:
    * `Steps.after`
    * `Exchange`
    * `Steps.exchanges`

  Main statements:
    * `Steps.after_append`
    * `Steps.after_keeps`
    * `Steps.flag_after`
    * `Steps.exchanges_append`
-/

namespace CommandScript

/- A task and what it was answered with. -/
structure Exchange (τ ρ : Type) where
  task : τ
  reply : ρ
deriving DecidableEq, Repr

namespace Steps

variable {σ τ ρ : Type}
variable (step : σ → τ → σ × ρ)

------------------------------------------------------------
-- The Last State
------------------------------------------------------------

/- The state after some tasks. -/
def after
    (s : σ)
    (tasks : List τ) : σ :=
  tasks.foldl (fun s task => (step s task).1) s

theorem after_append
    (s : σ)
    (early late : List τ) :
    after step s (early ++ late) =
      after step (after step s early) late :=
  List.foldl_append

theorem after_concat
    (s : σ)
    (tasks : List τ)
    (task : τ) :
    after step s (tasks ++ [task]) =
      (step (after step s tasks) task).1 :=
  after_append step s tasks [task]

variable {step}
variable {s : σ}
variable {tasks : List τ}

/- What every step keeps is kept by all of them. -/
theorem after_keeps
    {P : σ → Prop}
    (hStep : ∀ task ∈ tasks, ∀ s, P s → P (step s task).1)
    (hStart : P s) :
    P (after step s tasks) := by
  induction tasks generalizing s with
  | nil => exact hStart
  | cons task tasks ih =>
      rcases List.forall_mem_cons.mp hStep with
        ⟨hFirst, hRest⟩
      exact ih hRest (hFirst s hStart)

/- What later steps keep holds after them, if before. -/
theorem after_append_keeps
    {P : σ → Prop}
    {early late : List τ}
    (hStep : ∀ task ∈ late, ∀ s, P s → P (step s task).1)
    (hEarly : P (after step s early)) :
    P (after step s (early ++ late)) := by
  rw [after_append]
  exact after_keeps hStep hEarly

/- A flag that is never lowered is up once it is raised. -/
theorem flag_after
    (flag : σ → Bool)
    (raises : τ → Bool)
    (hStep :
      ∀ s task,
        flag (step s task).1 = (flag s || raises task))
    (s : σ)
    (tasks : List τ) :
    flag (after step s tasks) =
      (flag s || tasks.any raises) := by
  induction tasks generalizing s with
  | nil => exact (Bool.or_false _).symm
  | cons task tasks ih =>
      rw [List.any_cons, ← Bool.or_assoc, ← hStep]
      exact ih (step s task).1

------------------------------------------------------------
-- The Replies
------------------------------------------------------------

variable (step)

/- Tasks with what each of them is answered. -/
def exchanges
    (s : σ) : List τ → List (Exchange τ ρ)
| [] => []
| task :: rest =>
    ⟨task, (step s task).2⟩ ::
      exchanges (step s task).1 rest

theorem exchanges_append
    (s : σ)
    (early late : List τ) :
    exchanges step s (early ++ late) =
      exchanges step s early ++
        exchanges step (after step s early) late := by
  induction early generalizing s with
  | nil => rfl
  | cons task early ih =>
      rw [List.cons_append, exchanges, ih, exchanges,
        List.cons_append]
      rfl

theorem exchanges_concat
    (s : σ)
    (tasks : List τ)
    (task : τ) :
    exchanges step s (tasks ++ [task]) =
      exchanges step s tasks ++
        [⟨task, (step (after step s tasks) task).2⟩] :=
  exchanges_append step s tasks [task]

end Steps

end CommandScript
