import CommandScript.Params

/-
  The parameter that a refusal names. Texts are in the order
  of their UTF-8 bytes, and of the parameters that are not
  taken the first in that order is named.

  Key definitions include:
    * `Text.bytes`
    * `Text.IsLeast`
    * `Params.HasUnknown`

  Main statements:
    * `Text.bytes_lt_iff`
    * `Params.denyUnknown_eq_error_iff`
    * `Params.denyAll_eq_error_iff`
-/

namespace CommandScript

------------------------------------------------------------
-- The Order of Bytes
------------------------------------------------------------

namespace Text

/- The UTF-8 form of a text. -/
def bytes (s : String) : List UInt8 :=
  s.toByteArray.data.toList

/- The bytes of a text are those of its characters. -/
theorem bytes_eq_flatMap
    (s : String) :
    bytes s = s.toList.flatMap String.utf8EncodeChar := by
  unfold bytes
  rw [← String.utf8Encode_toList]
  unfold List.utf8Encode
  rw [List.data_toByteArray]

/-
  Of two characters the one with the smaller code point has
  the smaller bytes, whatever comes after them.
-/
theorem encode_append_lt
    {c d : Char}
    (hLess : c < d)
    (x y : List UInt8) :
    String.utf8EncodeChar c ++ x <
      String.utf8EncodeChar d ++ y := by
  have hPoints : c.val.toNat < d.val.toNat := hLess
  have hBound : d.val.toNat < 1114112 := by
    rcases d.valid with hLow | hHigh
    · have hLow : d.val.toNat < 55296 := hLow
      omega
    · exact hHigh.2
  have hByte
      (k : Nat)
      (hk : k < 256) :
      (UInt8.ofNat k).toNat = k := by
    rw [UInt8.toNat_ofNat', Nat.mod_eq_of_lt hk]
  -- Each byte but the first holds one digit to the base 64.
  have hTwo (k : Nat) : k / 4096 = k / 64 / 64 := by
    rw [Nat.div_div_eq_div_mul]
  have hThree (k : Nat) :
      k / 262144 = k / 64 / 64 / 64 := by
    simp only [Nat.div_div_eq_div_mul]
  unfold String.utf8EncodeChar
  generalize c.val.toNat = m at *
  generalize d.val.toNat = n at *
  simp only [hTwo, hThree]
  -- The lengths of the two forms are compared first.
  repeat' split
  all_goals
    first
    | omega
    | simp (disch := omega) only [List.cons_append,
        List.nil_append, List.cons_lt_cons_iff,
        UInt8.lt_iff_toNat_lt, ← UInt8.toNat_inj, hByte]
      omega

theorem flatMap_encode_lt
    {s t : List Char}
    (hLess : s < t) :
    s.flatMap String.utf8EncodeChar <
      t.flatMap String.utf8EncodeChar := by
  induction hLess with
  | @nil c rest =>
      rw [List.flatMap_nil, List.flatMap_cons]
      cases hEncoded : String.utf8EncodeChar c with
      | nil =>
          exact
            absurd hEncoded String.utf8EncodeChar_ne_nil
      | cons byte others => exact List.nil_lt_cons _ _
  | rel hChars => exact encode_append_lt hChars _ _
  | cons hRest ih => exact List.append_left_lt ih

/- The order of texts is the order of their bytes. -/
theorem bytes_lt_iff
    {s t : String} :
    bytes s < bytes t ↔ s < t := by
  have hOf {a b : String} (hLess : a < b) :
      bytes a < bytes b := by
    rw [bytes_eq_flatMap, bytes_eq_flatMap]
    exact flatMap_encode_lt hLess
  constructor
  · intro hBytes
    apply Decidable.byContradiction
    intro hNot
    by_cases hEqual : s = t
    · rw [hEqual] at hBytes
      exact List.lt_irrefl _ hBytes
    · have hLess : t < s := by
        apply Decidable.byContradiction
        intro hNot'
        exact
          hEqual
            (String.le_antisymm (String.not_lt.mp hNot')
              (String.not_lt.mp hNot))
      exact List.lt_asymm hBytes (hOf hLess)
  · exact hOf

/- The text of a sort that comes before all others of it. -/
structure IsLeast
    (sort : String → Prop)
    (key : String) : Prop where
  ofSort : sort key
  least :
    ∀ other,
      sort other → other ≠ key → bytes key < bytes other

end Text

------------------------------------------------------------
-- Keys in Order
------------------------------------------------------------

namespace Dictionary

variable {α : Type}

/- The keys are those that have a value. -/
theorem mem_keys_iff
    {d : Dictionary α}
    {key : String} :
    key ∈ d.keys ↔ d.contains key = true := by
  unfold keys contains
  rw [List.mem_map, Option.isSome_iff_exists]
  constructor
  · rintro ⟨⟨_, value⟩, hEntry, rfl⟩
    exact ⟨value, get?_eq_some_iff.mpr hEntry⟩
  · rintro ⟨value, hValue⟩
    exact ⟨(key, value), get?_eq_some_iff.mp hValue, rfl⟩

/- The keys are strictly increasing. -/
theorem pairwise_keys
    (d : Dictionary α) :
    d.keys.Pairwise (· < ·) :=
  List.pairwise_map.mpr d.ordered

end Dictionary

/- What is found first in an ordered list is the least. -/
theorem find?_eq_some_iff_least
    {keys : List String}
    {sort : String → Bool}
    {key : String}
    (hOrdered : keys.Pairwise (· < ·)) :
    keys.find? sort = some key ↔
      key ∈ keys ∧
        sort key = true ∧
          ∀ other ∈ keys,
            sort other = true → other ≠ key →
              key < other := by
  induction keys with
  | nil => simp
  | cons head rest ih =>
      rcases List.pairwise_cons.mp hOrdered with
        ⟨hHead, hRest⟩
      cases hSort : sort head with
      | true =>
          rw [List.find?_cons_of_pos hSort,
            Option.some.injEq]
          constructor
          · rintro rfl
            refine ⟨List.mem_cons_self, hSort, ?_⟩
            intro other hOther _ hNe
            rcases List.mem_cons.mp hOther with
              rfl | hOther
            · exact absurd rfl hNe
            · exact hHead other hOther
          · rintro ⟨hMem, _, hLeast⟩
            rcases List.mem_cons.mp hMem with rfl | hMem
            · rfl
            · have hLess := hHead key hMem
              have hGreater :=
                hLeast head List.mem_cons_self hSort
                  (by
                    rintro rfl
                    exact String.lt_irrefl _ hLess)
              exact
                absurd hGreater (String.lt_asymm hLess)
      | false =>
          rw [List.find?_cons_of_neg (by simp [hSort]),
            ih hRest]
          constructor
          · rintro ⟨hMem, hKey, hLeast⟩
            refine ⟨List.mem_cons_of_mem _ hMem, hKey, ?_⟩
            intro other hOther hOtherSort
            rcases List.mem_cons.mp hOther with
              rfl | hOther
            · rw [hSort] at hOtherSort
              cases hOtherSort
            · exact hLeast other hOther hOtherSort
          · rintro ⟨hMem, hKey, hLeast⟩
            rcases List.mem_cons.mp hMem with rfl | hMem
            · rw [hSort] at hKey
              cases hKey
            · refine ⟨hMem, hKey, ?_⟩
              intro other hOther
              exact
                hLeast other (List.mem_cons_of_mem _ hOther)

------------------------------------------------------------
-- Refused Parameters
------------------------------------------------------------

namespace Params

/- There is a parameter of a name. -/
def Has
    (params : Params)
    (key : String) : Prop :=
  params.contains key = true

/- There is a parameter of a name that is not allowed. -/
def HasUnknown
    (params : Params)
    (allowed : List String)
    (key : String) : Prop :=
  params.Has key ∧ key ∉ allowed

variable {params : Params}
variable {allowed : List String}

/- The first key of a sort is the least of that sort. -/
theorem find?_keys_eq_some_iff
    {sort : String → Bool}
    {key : String} :
    params.keys.find? sort = some key ↔
      Text.IsLeast
        (fun other => params.Has other ∧ sort other = true)
        key := by
  rw [find?_eq_some_iff_least params.pairwise_keys]
  simp only [Dictionary.mem_keys_iff, ← Text.bytes_lt_iff]
  exact
    ⟨fun ⟨hMem, hSort, hLeast⟩ =>
        ⟨⟨hMem, hSort⟩, fun other hOther =>
          hLeast other hOther.1 hOther.2⟩,
      fun ⟨⟨hMem, hSort⟩, hLeast⟩ =>
        ⟨hMem, hSort, fun other hOther hSort =>
          hLeast other ⟨hOther, hSort⟩⟩⟩

/- The least key that is not allowed is the one refused. -/
theorem denyUnknown_eq_error_iff
    {cause : ConfigError} :
    params.denyUnknown allowed = .error cause ↔
      ∃ key,
        cause = .unknownParameter key ∧
          Text.IsLeast (params.HasUnknown allowed) key := by
  have hFound {key : String} :
      (params.keys.find? fun other =>
          !allowed.contains other) = some key ↔
        Text.IsLeast (params.HasUnknown allowed) key := by
    rw [find?_keys_eq_some_iff]
    simp only [Bool.not_eq_true', List.contains_eq_mem,
      decide_eq_false_iff_not]
    rfl
  unfold denyUnknown
  constructor
  · intro hDenied
    split at hDenied
    · rename_i key hKey
      cases hDenied
      exact ⟨key, rfl, hFound.mp hKey⟩
    · cases hDenied
  · rintro ⟨key, rfl, hLeast⟩
    rw [hFound.mpr hLeast]

/- Parameters that are all allowed are not refused. -/
theorem denyUnknown_eq_ok_iff :
    params.denyUnknown allowed = .ok () ↔
      ∀ key, params.Has key → key ∈ allowed := by
  have hNone :
      (params.keys.find? fun other =>
          !allowed.contains other) = none ↔
        ∀ key, params.Has key → key ∈ allowed := by
    rw [List.find?_eq_none]
    simp [Dictionary.mem_keys_iff, Has]
  unfold denyUnknown
  rw [← hNone]
  split <;> simp_all

/- Where none is allowed the least key is the one refused. -/
theorem denyAll_eq_error_iff
    {cause : ConfigError} :
    params.denyAll = .error cause ↔
      ∃ key,
        cause = .notConfigurable key ∧
          Text.IsLeast params.Has key := by
  have hFirst {key : String} :
      params.keys.head? = some key ↔
        Text.IsLeast params.Has key := by
    have hFind :
        params.keys.find? (fun _ => true) =
          params.keys.head? := by
      cases params.keys <;> rfl
    rw [← hFind, find?_keys_eq_some_iff]
    simp only [and_true]
  unfold denyAll
  constructor
  · intro hDenied
    split at hDenied
    · cases hDenied
    · rename_i key rest hKeys
      cases hDenied
      exact ⟨key, rfl, hFirst.mp (by rw [hKeys]; rfl)⟩
  · rintro ⟨key, rfl, hLeast⟩
    have hHead := hFirst.mpr hLeast
    split
    · rename_i hKeys
      rw [hKeys] at hHead
      cases hHead
    · rename_i first rest hKeys
      rw [hKeys] at hHead
      cases hHead
      rfl

/- Only no parameters at all are not refused then. -/
theorem denyAll_eq_ok_iff :
    params.denyAll = .ok () ↔ ∀ key, ¬ params.Has key := by
  unfold denyAll
  constructor
  · intro hTaken key
    split at hTaken
    · rename_i hKeys
      have hMem : key ∉ params.keys := by
        rw [hKeys]
        exact List.not_mem_nil
      rwa [Dictionary.mem_keys_iff] at hMem
    · cases hTaken
  · intro hNone
    split
    · rfl
    · rename_i key rest hKeys
      have hMem : key ∈ params.keys := by
        rw [hKeys]
        exact List.mem_cons_self
      exact
        absurd (Dictionary.mem_keys_iff.mp hMem) (hNone key)

end Params

end CommandScript
