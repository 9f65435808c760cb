/-
  The one grammar of command kinds and parameter names: an
  ASCII letter or an underscore, then ASCII letters, digits,
  underscores, points and hyphens.

  Key definitions include:
    * `Text.isName`
-/

namespace CommandScript

namespace Text

/- A character that a name can start with. -/
def isNameStart (c : Char) : Bool :=
  c.isAlpha || c == '_'

/- A character that a name can go on with. -/
def isNameChar (c : Char) : Bool :=
  c.isAlphanum || c == '_' || c == '.' || c == '-'

/- The texts that are names. -/
def isName : List Char → Bool
| [] => false
| c :: rest => isNameStart c && rest.all isNameChar

/- Every character of a name is one it can go on with. -/
theorem isNameChar_of_mem
    {s : List Char}
    (h : isName s = true) :
    ∀ c ∈ s, isNameChar c = true := by
  cases s with
  | nil => simp
  | cons head rest =>
      simp only [isName, Bool.and_eq_true,
        List.all_eq_true] at h
      intro c hc
      rcases List.mem_cons.mp hc with rfl | hRest
      · have hStart := h.1
        simp only [isNameStart, Bool.or_eq_true] at hStart
        simp only [isNameChar, Char.isAlphanum,
          Bool.or_eq_true]
        rcases hStart with hStart | hStart
        · exact Or.inl (Or.inl (Or.inl (Or.inl hStart)))
        · exact Or.inl (Or.inl (Or.inr hStart))
      · exact h.2 c hRest

end Text

end CommandScript
