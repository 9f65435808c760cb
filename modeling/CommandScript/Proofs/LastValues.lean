import CommandScript.Making
import CommandScript.Proofs.LeastKeys
import Mathlib.Data.Finset.Card
import Mathlib.Data.List.Induction

/-
  What parameters keep of the entries they are made of: the
  last value of each key, in the order of the keys. Neither
  the order of the entries nor a value that was replaced
  leaves a trace.

  Key definitions include:
    * `Params.given`
    * `Params.IsLast`
    * `Params.Keeps`

  Main statements:
    * `Params.get?_ofList`
    * `Params.made_eq_ofList`
    * `Params.keeps_ofList`
    * `Params.made_keeps_last_values`
-/

namespace CommandScript

namespace Params

------------------------------------------------------------
-- Last Values
------------------------------------------------------------

/- The last entry under a key has a value. -/
def IsLast
    (entries : List (String × String))
    (key value : String) : Prop :=
  ∃ early late,
    entries = early ++ (key, value) :: late ∧
      ∀ entry ∈ late, entry.1 ≠ key

section Last

variable {entries : List (String × String)}
variable {key value : String}

/- One more entry is the last one under its own key. -/
theorem isLast_concat_iff
    {entry : String × String} :
    IsLast (entries ++ [entry]) key value ↔
      if key = entry.1 then value = entry.2
      else IsLast entries key value := by
  constructor
  · rintro ⟨early, late, hEntries, hLate⟩
    rcases List.eq_nil_or_concat late with
      rfl | ⟨late, last, rfl⟩
    · rcases List.append_inj' hEntries rfl with ⟨_, hLast⟩
      cases hLast
      rw [if_pos rfl]
    · rw [List.concat_eq_append] at hEntries hLate
      rw [← List.cons_append, ← List.append_assoc]
        at hEntries
      rcases List.append_inj' hEntries rfl with
        ⟨rfl, hLast⟩
      cases hLast
      rcases List.forall_mem_append.mp hLate with
        ⟨hLate, hOther⟩
      have hNe := hOther entry List.mem_cons_self
      rw [if_neg hNe.symm]
      exact ⟨early, late, rfl, hLate⟩
  · intro hLast
    split at hLast
    · rename_i hKey
      subst hKey hLast
      exact ⟨entries, [], rfl, List.forall_mem_nil _⟩
    · rename_i hKey
      rcases hLast with ⟨early, late, rfl, hLate⟩
      refine ⟨early, late ++ [entry], by simp, ?_⟩
      intro other hOther
      rcases List.mem_append.mp hOther with hOther | hOther
      · exact hLate other hOther
      · rw [List.mem_singleton.mp hOther]
        exact Ne.symm hKey

/- Under the key of an entry there is a last one. -/
theorem exists_isLast_iff :
    (∃ value, IsLast entries key value) ↔
      key ∈ entries.map Prod.fst := by
  induction entries using List.reverseRecOn with
  | nil => simp [IsLast]
  | append_singleton entries entry ih =>
      simp only [isLast_concat_iff, List.map_append,
        List.map_cons, List.map_nil, List.mem_append,
        List.mem_singleton, ← ih]
      split
      · rename_i hKey
        exact iff_of_true ⟨_, rfl⟩ (.inr hKey)
      · rename_i hKey
        exact (or_iff_left hKey).symm

/- What is found under a key is its last value. -/
theorem get?_ofList
    (entries : List (String × String))
    (key value : String) :
    (Dictionary.ofList entries).get? key = some value ↔
      IsLast entries key value := by
  induction entries using List.reverseRecOn with
  | nil =>
      simp [IsLast, Dictionary.ofList, Dictionary.empty,
        Dictionary.get?]
  | append_singleton entries entry ih =>
      rw [Dictionary.ofList_concat, isLast_concat_iff]
      split
      · rename_i hKey
        rw [hKey, Dictionary.get?_insert_self,
          Option.some.injEq, eq_comm]
      · rename_i hKey
        rw [Dictionary.get?_insert_of_ne _ hKey, ih]

end Last

------------------------------------------------------------
-- The Making of Parameters
------------------------------------------------------------

/- The entries that are put in by one more step. -/
def Making.entriesAfter
    (entries : List (String × String)) :
    Making → List (String × String)
| .collect collected => collected
| .insert key value => entries ++ [(key, value)]

/-
  The entries that parameters are made of, one after
  another: those collected last and those set after them.
-/
def given (steps : List Making) : List (String × String) :=
  steps.foldl Making.entriesAfter []

/- A step puts its entries in. -/
theorem make_ofList
    (entries : List (String × String))
    (step : Making) :
    (make (Dictionary.ofList entries) step).2 =
      Dictionary.ofList (step.entriesAfter entries) := by
  cases step with
  | collect collected => rfl
  | insert key value =>
      simp only [make, Making.entriesAfter,
        Dictionary.exchange_eq, Dictionary.ofList_concat]

/- Parameters could as well be collected at once. -/
theorem made_eq_ofList
    (steps : List Making) :
    made steps = Dictionary.ofList (given steps) := by
  induction steps using List.reverseRecOn with
  | nil => rfl
  | append_singleton steps step ih =>
      unfold made given at ih ⊢
      rw [List.foldl_append, List.foldl_append, ih]
      exact make_ofList _ step

/-
  Parameters keep the last value of each key. They list
  these in the strict order of the bytes of the keys, and
  every way to ask for a key agrees with the list.
-/
structure Keeps
    (entries : List (String × String))
    (params : Params) : Prop where
  ordered :
    params.toList.Pairwise fun entry entry' =>
      Text.bytes entry.1 < Text.bytes entry'.1
  orderedKeys :
    params.keys.Pairwise fun key key' =>
      Text.bytes key < Text.bytes key'
  mem_iff :
    ∀ key value,
      (key, value) ∈ params.toList ↔
        IsLast entries key value
  mem_keys_iff :
    ∀ key,
      key ∈ params.keys ↔ key ∈ entries.map Prod.fst
  get? :
    ∀ key value,
      params.get? key = some value ↔
        IsLast entries key value
  contains :
    ∀ key,
      params.contains key =
        decide (key ∈ entries.map Prod.fst)
  required :
    ∀ key value,
      params.require key = .ok value ↔
        IsLast entries key value
  missing :
    ∀ key,
      key ∉ entries.map Prod.fst →
        params.require key = .error (.missingParameter key)
  size :
    params.size = (entries.map Prod.fst).toFinset.card
  isEmpty : params.isEmpty = decide (entries = [])

/- All that can be asked is decided by the last values. -/
theorem keeps_ofList
    (entries : List (String × String)) :
    Keeps entries (Dictionary.ofList entries) := by
  have hGet := get?_ofList entries
  have hKeys (key : String) :
      key ∈ (Dictionary.ofList entries).keys ↔
        key ∈ entries.map Prod.fst := by
    rw [Dictionary.mem_keys_iff, Dictionary.contains,
      Option.isSome_iff_exists, ← exists_isLast_iff]
    simp only [hGet]
  constructor
  case ordered =>
    apply (Dictionary.ofList entries).ordered.imp
    exact Text.bytes_lt_iff.mpr
  case orderedKeys =>
    apply (Dictionary.ofList entries).pairwise_keys.imp
    exact Text.bytes_lt_iff.mpr
  case mem_iff =>
    intro key value
    rw [← Dictionary.get?_eq_some_iff, hGet]
  case mem_keys_iff => exact hKeys
  case get? => exact hGet
  case contains =>
    intro key
    rw [Bool.eq_iff_iff, decide_eq_true_iff, ← hKeys,
      Dictionary.mem_keys_iff]
  case required =>
    intro key value
    rw [← hGet]
    unfold require
    cases (Dictionary.ofList entries).get? key <;> simp
  case missing =>
    intro key hKey
    rw [← exists_isLast_iff, not_exists] at hKey
    simp only [← hGet, ← Option.eq_none_iff_forall_ne_some]
      at hKey
    unfold require
    rw [hKey]
  case size =>
    have hNodup := (Dictionary.ofList entries).nodup_keys
    have hSize :
        (Dictionary.ofList entries).size =
          (Dictionary.ofList entries).keys.length :=
      List.length_map _ |>.symm
    rw [hSize, ← List.toFinset_card_of_nodup hNodup]
    congr 1
    ext key
    rw [List.mem_toFinset, List.mem_toFinset, hKeys]
  case isEmpty =>
    have hNone :
        (Dictionary.ofList entries).keys = [] ↔
          entries.map Prod.fst = [] := by
      simp only [List.eq_nil_iff_forall_not_mem, hKeys]
    unfold Dictionary.keys at hNone
    rw [List.map_eq_nil_iff, List.map_eq_nil_iff] at hNone
    rw [Bool.eq_iff_iff, decide_eq_true_iff, ← hNone]
    exact List.isEmpty_iff

/-
  Parameters are a map from keys to the values they were
  last given, however they are made. Setting one gives back
  the value that was there just before. Parameters are equal
  if they have the same values, whatever they were made of.
  They are taken exactly if all their keys are allowed; else
  the least of the others is the one that is named.
-/
theorem made_keeps_last_values
    (steps : List Making) :
    Keeps (given steps) (made steps) ∧
    (∀ key value,
      ((made steps).make (.insert key value)).1 =
        (made steps).get? key) ∧
    (∀ steps',
      made steps = made steps' ↔
        ∀ key, (made steps).get? key = (made steps').get? key) ∧
    (∀ steps',
      made steps = made steps' ↔
        ∀ key value,
          IsLast (given steps) key value ↔
            IsLast (given steps') key value) ∧
    ∀ allowed,
      ((made steps).denyUnknown allowed = .ok () ↔
        ∀ key ∈ (made steps).keys, key ∈ allowed) ∧
      ∀ cause,
        (made steps).denyUnknown allowed = .error cause ↔
          ∃ key,
            cause = .unknownParameter key ∧
              Text.IsLeast
                (fun other =>
                  other ∈ (made steps).keys ∧
                    other ∉ allowed)
                key := by
  have hKeeps : Keeps (given steps) (made steps) := by
    rw [made_eq_ofList]
    exact keeps_ofList (given steps)
  have hEqual (steps' : List Making) :
      made steps = made steps' ↔
        ∀ key,
          (made steps).get? key = (made steps').get? key :=
    ⟨fun hMade _ => hMade ▸ rfl, Dictionary.ext_get?⟩
  refine ⟨hKeeps, ?_, hEqual, ?_, ?_⟩
  · intro key value
    exact
      congrArg Prod.fst
        (Dictionary.exchange_eq (made steps) key value)
  · intro steps'
    have hKeeps' : Keeps (given steps') (made steps') := by
      rw [made_eq_ofList]
      exact keeps_ofList (given steps')
    rw [hEqual]
    apply forall_congr'
    intro key
    simp only [Option.ext_iff, hKeeps.get?, hKeeps'.get?]
  · intro allowed
    simp only [Dictionary.mem_keys_iff]
    exact
      ⟨denyUnknown_eq_ok_iff,
        fun _ => denyUnknown_eq_error_iff⟩

end Params

end CommandScript
