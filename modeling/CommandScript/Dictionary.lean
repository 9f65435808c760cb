/-
  Finite maps from strings, kept in the order of their keys.
  Strings are compared by code points, which is also the
  order of their UTF-8 bytes.

  Key definitions include:
    * `Dictionary`
    * `Dictionary.get?`
    * `Dictionary.insert`
    * `Dictionary.exchange`
    * `Dictionary.erase`
    * `Dictionary.map`
    * `Dictionary.ofList`
-/

namespace CommandScript

------------------------------------------------------------
-- Entries in the Order of Their Keys
------------------------------------------------------------

namespace Entries

variable {α β : Type}

/- The keys of the entries are strictly increasing. -/
def Ordered (entries : List (String × α)) : Prop :=
  entries.Pairwise fun left right => left.1 < right.1

instance (entries : List (String × α)) :
    Decidable (Ordered entries) := by
  unfold Ordered
  infer_instance

/-
  Put an entry in its place. An entry that is already there
  under the same key is replaced.
-/
def insert
    (key : String)
    (value : α) :
    List (String × α) → List (String × α)
| [] => [(key, value)]
| entry :: rest =>
    if key < entry.1 then (key, value) :: entry :: rest
    else if key = entry.1 then (key, value) :: rest
    else entry :: insert key value rest

/- An entry is either the one put in or an older one. -/
theorem mem_insert
    {key : String}
    {value : α}
    {entries : List (String × α)}
    {entry : String × α}
    (h : entry ∈ insert key value entries) :
    entry = (key, value) ∨ entry ∈ entries := by
  induction entries with
  | nil => simpa [insert] using h
  | cons head rest ih =>
      unfold insert at h
      split at h
      · simpa using h
      · split at h
        · rcases List.mem_cons.mp h with h | h
          · exact Or.inl h
          · exact Or.inr (List.mem_cons_of_mem _ h)
        · rcases List.mem_cons.mp h with h | h
          · exact Or.inr (by simp [h])
          · rcases ih h with h | h
            · exact Or.inl h
            · exact Or.inr (List.mem_cons_of_mem _ h)

/- Putting an entry in its place keeps the order. -/
theorem ordered_insert
    {key : String}
    {value : α}
    {entries : List (String × α)}
    (h : Ordered entries) :
    Ordered (insert key value entries) := by
  induction entries with
  | nil => simp [insert, Ordered]
  | cons head rest ih =>
      have hHead :
          ∀ entry ∈ rest, head.1 < entry.1 :=
        fun _ hEntry => List.rel_of_pairwise_cons h hEntry
      have hRest : Ordered rest := List.Pairwise.of_cons h
      unfold insert
      split
      · rename_i hLess
        refine List.Pairwise.cons ?_ h
        intro entry hEntry
        rcases List.mem_cons.mp hEntry with rfl | hEntry
        · exact hLess
        · exact String.lt_trans hLess (hHead _ hEntry)
      · split
        · rename_i hEqual
          refine List.Pairwise.cons ?_ hRest
          intro entry hEntry
          simpa [hEqual] using hHead _ hEntry
        · rename_i hNotLess hNotEqual
          refine List.Pairwise.cons ?_ (ih hRest)
          intro entry hEntry
          rcases mem_insert hEntry with rfl | hEntry
          · have hLe := String.not_lt.mp hNotLess
            rcases Decidable.em (head.1 < key) with h | h
            · exact h
            · exact absurd
                (String.le_antisymm
                  (String.not_lt.mp h) hLe)
                hNotEqual
          · exact hHead _ hEntry

/-
  Put an entry in its place and take out the value that was
  there under its key, in one pass.
-/
def exchange
    (key : String)
    (value : α) :
    List (String × α) → Option α × List (String × α)
| [] => (none, [(key, value)])
| entry :: rest =>
    if key < entry.1 then
      (none, (key, value) :: entry :: rest)
    else if key = entry.1 then
      (some entry.2, (key, value) :: rest)
    else
      let exchanged := exchange key value rest
      (exchanged.1, entry :: exchanged.2)

/- Whether a value is taken out or not, one is put in. -/
theorem exchange_entries
    (key : String)
    (value : α)
    (entries : List (String × α)) :
    (exchange key value entries).2 =
      insert key value entries := by
  induction entries with
  | nil => rfl
  | cons head rest ih =>
      unfold exchange insert
      split
      · rfl
      · split
        · rfl
        · exact congrArg (head :: ·) ih

/- What is taken out is what was found there. -/
theorem exchange_value
    {entries : List (String × α)}
    (hOrdered : Ordered entries)
    (key : String)
    (value : α) :
    (exchange key value entries).1 = entries.lookup key :=
    by
  induction entries with
  | nil => rfl
  | cons head rest ih =>
      obtain ⟨headKey, headValue⟩ := head
      unfold exchange
      split
      · rename_i hLess
        have hLater :
            ∀ entry ∈ (headKey, headValue) :: rest,
              (key == entry.1) = false := by
          intro entry hEntry
          -- All keys from here on are greater.
          have hGreater : key < entry.1 := by
            rcases List.mem_cons.mp hEntry with
              rfl | hEntry
            · exact hLess
            · exact
                String.lt_trans hLess
                  (List.rel_of_pairwise_cons hOrdered hEntry)
          rw [beq_eq_false_iff_ne]
          rintro rfl
          exact String.lt_irrefl _ hGreater
        exact
          (List.lookup_eq_none_iff.mpr fun entry hEntry =>
            by simpa using hLater entry hEntry).symm
      · split
        · rename_i hEqual
          simp [hEqual]
        · rename_i hNotEqual
          have hKey : (key == headKey) = false := by
            simpa using hNotEqual
          rw [List.lookup_cons, hKey]
          exact ih (List.Pairwise.of_cons hOrdered)

/- Taking entries away keeps the order. -/
theorem ordered_filter
    {keep : String × α → Bool}
    {entries : List (String × α)}
    (h : Ordered entries) :
    Ordered (entries.filter keep) :=
  List.Pairwise.filter keep h

/- Changing values keeps the order. -/
theorem ordered_map
    {change : α → β}
    {entries : List (String × α)}
    (h : Ordered entries) :
    Ordered
      (entries.map fun entry =>
        (entry.1, change entry.2)) :=
  List.Pairwise.map _ (fun _ _ hLess => hLess) h

end Entries

------------------------------------------------------------
-- Dictionaries
------------------------------------------------------------

/- A finite map from strings. -/
structure Dictionary (α : Type) where
  toList : List (String × α)
  ordered : Entries.Ordered toList
deriving DecidableEq

namespace Dictionary

variable {α β : Type}

/- The map without entries. -/
def empty : Dictionary α where
  toList := []
  ordered := List.Pairwise.nil

instance : Inhabited (Dictionary α) := ⟨empty⟩

/- The value under a key. -/
def get?
    (d : Dictionary α)
    (key : String) : Option α :=
  d.toList.lookup key

/- Whether there is a value under a key. -/
def contains
    (d : Dictionary α)
    (key : String) : Bool :=
  (d.get? key).isSome

/- Set the value under a key. -/
def insert
    (d : Dictionary α)
    (key : String)
    (value : α) : Dictionary α where
  toList := Entries.insert key value d.toList
  ordered := Entries.ordered_insert d.ordered

/-
  Set the value under a key. The value that was there comes
  first, and the map after it.
-/
def exchange
    (d : Dictionary α)
    (key : String)
    (value : α) : Option α × Dictionary α :=
  ( (Entries.exchange key value d.toList).1,
    { toList := (Entries.exchange key value d.toList).2
      ordered :=
        Entries.exchange_entries key value d.toList ▸
          Entries.ordered_insert d.ordered } )

/- Take away the value under a key. -/
def erase
    (d : Dictionary α)
    (key : String) : Dictionary α where
  toList := d.toList.filter fun entry => entry.1 != key
  ordered := Entries.ordered_filter d.ordered

/- Change every value. -/
def map
    (change : α → β)
    (d : Dictionary α) : Dictionary β where
  toList :=
    d.toList.map fun entry => (entry.1, change entry.2)
  ordered := Entries.ordered_map d.ordered

/- Insert entries one after another; the last one wins. -/
def ofList (entries : List (String × α)) : Dictionary α :=
  entries.foldl
    (fun d entry => d.insert entry.1 entry.2) empty

/- The keys in ascending order. -/
def keys (d : Dictionary α) : List String :=
  d.toList.map fun entry => entry.1

/- The number of entries. -/
def size (d : Dictionary α) : Nat :=
  d.toList.length

/- Whether there are no entries. -/
def isEmpty (d : Dictionary α) : Bool :=
  d.toList.isEmpty

------------------------------------------------------------
-- Lookup After a Change
------------------------------------------------------------

private theorem lookup_entriesInsert_self
    (key : String)
    (value : α)
    (entries : List (String × α)) :
    (Entries.insert key value entries).lookup key =
      some value := by
  induction entries with
  | nil => simp [Entries.insert]
  | cons head rest ih =>
      obtain ⟨headKey, headValue⟩ := head
      unfold Entries.insert
      split
      · simp
      · split
        · simp
        · rename_i hNotEqual
          have hKey : (key == headKey) = false := by
            simpa using hNotEqual
          simp [List.lookup_cons, hKey, ih]

private theorem lookup_entriesInsert_of_ne
    {key other : String}
    (h : other ≠ key)
    (value : α)
    (entries : List (String × α)) :
    (Entries.insert key value entries).lookup other =
      entries.lookup other := by
  have hOther : (other == key) = false := by
    simpa using h
  induction entries with
  | nil => simp [Entries.insert, List.lookup_cons, hOther]
  | cons head rest ih =>
      obtain ⟨headKey, headValue⟩ := head
      unfold Entries.insert
      split
      · simp [List.lookup_cons, hOther]
      · split
        · rename_i hEqual
          subst hEqual
          simp [List.lookup_cons, hOther]
        · simp [List.lookup_cons, ih]

/- The value last set under a key is the one found there. -/
theorem get?_insert_self
    (d : Dictionary α)
    (key : String)
    (value : α) :
    (d.insert key value).get? key = some value :=
  lookup_entriesInsert_self key value d.toList

/- Setting one key leaves the others alone. -/
theorem get?_insert_of_ne
    (d : Dictionary α)
    {key other : String}
    (h : other ≠ key)
    (value : α) :
    (d.insert key value).get? other = d.get? other :=
  lookup_entriesInsert_of_ne h value d.toList

/- The last entry is inserted on top of the others. -/
theorem ofList_concat
    (entries : List (String × α))
    (entry : String × α) :
    ofList (entries ++ [entry]) =
      (ofList entries).insert entry.1 entry.2 := by
  unfold ofList
  rw [List.foldl_append]
  rfl

/- Setting a value gives back the one that was there. -/
theorem exchange_eq
    (d : Dictionary α)
    (key : String)
    (value : α) :
    d.exchange key value =
      (d.get? key, d.insert key value) := by
  unfold exchange insert get?
  simp only [Entries.exchange_entries,
    Entries.exchange_value d.ordered]

/- A key is there once it is set, and no other is then. -/
theorem contains_insert
    (d : Dictionary α)
    (key other : String)
    (value : α) :
    (d.insert key value).contains other =
      (other == key || d.contains other) := by
  unfold contains
  by_cases h : other = key
  · subst h
    simp [get?_insert_self]
  · simp [get?_insert_of_ne d h, h]

private theorem lookup_map
    (change : α → β)
    (entries : List (String × α))
    (key : String) :
    (entries.map fun entry =>
        (entry.1, change entry.2)).lookup key =
      (entries.lookup key).map change := by
  induction entries with
  | nil => rfl
  | cons head rest ih =>
      obtain ⟨headKey, headValue⟩ := head
      simp only [List.map_cons, List.lookup_cons]
      cases key == headKey with
      | true => rfl
      | false => exact ih

/- What is found under a key is changed like the rest. -/
theorem get?_map
    (change : α → β)
    (d : Dictionary α)
    (key : String) :
    (d.map change).get? key = (d.get? key).map change :=
  lookup_map change d.toList key

private theorem lookup_filter_of_ne
    {key other : String}
    (h : other ≠ key)
    (entries : List (String × α)) :
    (entries.filter fun entry =>
        entry.1 != key).lookup other =
      entries.lookup other := by
  induction entries with
  | nil => rfl
  | cons head rest ih =>
      obtain ⟨headKey, headValue⟩ := head
      by_cases hHead : headKey = key
      · subst hHead
        have hOther : (other == headKey) = false := by
          simpa using h
        simp [List.lookup_cons, hOther, ih]
      · simp [List.lookup_cons, hHead, ih]

/- Taking one key away leaves none there. -/
theorem get?_erase_self
    (d : Dictionary α)
    (key : String) :
    (d.erase key).get? key = none := by
  apply List.lookup_eq_none_iff.mpr
  intro entry hEntry
  have hKept := (List.mem_filter.mp hEntry).2
  simp only [bne_iff_ne] at hKept ⊢
  exact hKept.symm

/- Taking one key away leaves the others alone. -/
theorem get?_erase_of_ne
    (d : Dictionary α)
    {key other : String}
    (h : other ≠ key) :
    (d.erase key).get? other = d.get? other :=
  lookup_filter_of_ne h d.toList

------------------------------------------------------------
-- Entries and Lookup
------------------------------------------------------------

private theorem lookup_eq_some_iff_mem
    {entries : List (String × α)}
    (hOrdered : Entries.Ordered entries)
    {key : String}
    {value : α} :
    entries.lookup key = some value ↔
      (key, value) ∈ entries := by
  induction entries with
  | nil => simp
  | cons head rest ih =>
      obtain ⟨headKey, headValue⟩ := head
      have hHead :
          ∀ entry ∈ rest, headKey < entry.1 :=
        fun _ hEntry =>
          List.rel_of_pairwise_cons hOrdered hEntry
      have hRest := ih (List.Pairwise.of_cons hOrdered)
      by_cases hKey : key = headKey
      · subst hKey
        have hNone : (key, value) ∉ rest := by
          intro hMem
          exact String.lt_irrefl key (hHead _ hMem)
        simp [hNone, eq_comm]
      · have hBeq : (key == headKey) = false := by
          simpa using hKey
        simp [List.lookup_cons, hBeq, hKey, hRest]

/- What is found under a key is an entry. -/
theorem get?_eq_some_iff
    {d : Dictionary α}
    {key : String}
    {value : α} :
    d.get? key = some value ↔ (key, value) ∈ d.toList :=
  lookup_eq_some_iff_mem d.ordered

/- No key stands twice. -/
theorem nodup_keys
    (d : Dictionary α) :
    d.keys.Nodup := by
  unfold keys
  apply List.pairwise_map.mpr
  refine d.ordered.imp ?_
  intro left right hLess hEqual
  rw [hEqual] at hLess
  exact String.lt_irrefl _ hLess

/- Maps are equal when they hold the same values. -/
theorem ext_get?
    {d d' : Dictionary α}
    (h : ∀ key, d.get? key = d'.get? key) :
    d = d' := by
  have hNodup (e : Dictionary α) : e.toList.Nodup := by
    refine (List.pairwise_map.mp e.nodup_keys).imp ?_
    intro left right hKeys hEqual
    exact hKeys (congrArg Prod.fst hEqual)
  have hPerm : d.toList.Perm d'.toList := by
    apply (List.perm_ext_iff_of_nodup (hNodup d)
      (hNodup d')).mpr
    intro entry
    rw [← get?_eq_some_iff, ← get?_eq_some_iff, h]
  have hEntries :=
    hPerm.eq_of_pairwise
      (fun left right _ _ hLess hGreater =>
        absurd hGreater (String.lt_asymm hLess))
      d.ordered d'.ordered
  cases d
  cases d'
  simpa using hEntries

/- Setting the value that is there changes nothing. -/
theorem insert_of_get?
    {d : Dictionary α}
    {key : String}
    {value : α}
    (h : d.get? key = some value) :
    d.insert key value = d := by
  apply ext_get?
  intro other
  by_cases hOther : other = key
  · subst hOther
    rw [get?_insert_self, h]
  · exact d.get?_insert_of_ne hOther value

end Dictionary

end CommandScript
