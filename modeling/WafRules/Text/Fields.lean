/-!
# Fields

Cutting a list of characters at a separator: at every occurrence, at the first one, or at the
first occurrence of the doubled separator.
-/

namespace WafRules.Text

/-- The stretches between the occurrences of a separator; there is always at least one. -/
def fields (separator : Char) : List Char → List (List Char)
  | [] => [[]]
  | c :: cs =>
    if c = separator then [] :: fields separator cs
    else
      match fields separator cs with
      | [] => [[c]]
      | first :: rest => (c :: first) :: rest

theorem fields_ne_nil (separator : Char) (cs : List Char) : fields separator cs ≠ [] := by
  cases cs with
  | nil => simp [fields]
  | cons c cs =>
    unfold fields
    split
    · simp
    · split <;> simp

/-- The characters before and after the first occurrence of a separator. -/
def cutAt? (separator : Char) : List Char → Option (List Char × List Char)
  | [] => none
  | c :: cs =>
    if c = separator then some ([], cs)
    else (cutAt? separator cs).map fun (before, after) => (c :: before, after)

/-- The characters before and after the first doubled separator. -/
def cutAtDouble? (separator : Char) : List Char → Option (List Char × List Char)
  | [] => none
  | [_] => none
  | c :: d :: cs =>
    if c = separator ∧ d = separator then some ([], cs)
    else (cutAtDouble? separator (d :: cs)).map fun (before, after) => (c :: before, after)

/-- What a cut removes is the separator alone. -/
theorem cutAt?_eq_some {separator : Char} {cs before after : List Char}
    (cut : cutAt? separator cs = some (before, after)) :
    cs = before ++ separator :: after ∧ separator ∉ before := by
  induction cs generalizing before with
  | nil => simp [cutAt?] at cut
  | cons c cs ih =>
    unfold cutAt? at cut
    split at cut
    · next same => simp_all
    · next other =>
      obtain ⟨⟨b, a⟩, inner, same⟩ := Option.map_eq_some_iff.1 cut
      cases same
      obtain ⟨rfl, free⟩ := ih inner
      exact ⟨rfl, by simp [free, Ne.symm other]⟩

end WafRules.Text
