import CommandScript.Params

/-
  Parameters in the making. They are collected from entries
  at once or set one after another; setting one gives back
  the value that it had before.

  Key definitions include:
    * `Params.Making`
    * `Params.make`
    * `Params.made`
-/

namespace CommandScript

namespace Params

/- A step in the making of parameters. -/
inductive Making where
| collect (entries : List (String × String))
| insert (key value : String)

/-
  Take a step, and give back the value that it replaces.
  What is collected starts anew.
-/
def make
    (params : Params) : Making → Option String × Params
| .collect entries => (none, Dictionary.ofList entries)
| .insert key value => params.exchange key value

/- What steps make of no parameters at all. -/
def made (steps : List Making) : Params :=
  steps.foldl (fun params step => (params.make step).2)
    Dictionary.empty

end Params

end CommandScript
