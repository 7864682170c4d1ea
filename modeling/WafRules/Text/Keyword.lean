/-!
# Keywords

Every keyword of the language is matched without regard to the case of ASCII letters.  A
family of keywords is a list of values with a spelling for each, and reading one is a search
for the first value whose spelling agrees.
-/

namespace WafRules.Text

/-- The characters of a text with the ASCII letters in lower case. -/
def foldCase (text : String) : List Char := text.toList.map Char.toLower

/-- Whether two texts agree up to the case of ASCII letters. -/
def sameKeyword (first second : String) : Bool := foldCase first == foldCase second

theorem sameKeyword_iff (first second : String) :
    sameKeyword first second = true ↔ foldCase first = foldCase second := by
  simp [sameKeyword]

/-- The first value whose spelling is the given keyword. -/
def keyword? {α : Type} (spelling : α → String) (values : List α) (text : String) : Option α :=
  values.find? fun value => sameKeyword (spelling value) text

/-- A keyword that is found is spelled like the value it stands for. -/
theorem sameKeyword_of_keyword? {α : Type} {spelling : α → String} {values : List α}
    {text : String} {value : α} (found : keyword? spelling values text = some value) :
    sameKeyword (spelling value) text = true := by
  unfold keyword? at found
  have same := List.find?_some found
  exact same

/-- The value of the first table entry whose spelling is the given keyword; a value with two
spellings has two entries. -/
def lookup? {α : Type} (table : List (String × α)) (text : String) : Option α :=
  (keyword? Prod.fst table text).map Prod.snd

/-- What a table gives for a spelling is one of its values. -/
theorem exists_mem_of_lookup? {α : Type} {table : List (String × α)} {text : String} {value : α}
    (found : lookup? table text = some value) : ∃ name, (name, value) ∈ table := by
  obtain ⟨⟨name, same⟩, listed, rfl⟩ := Option.map_eq_some_iff.mp found
  exact ⟨name, List.mem_of_find?_eq_some listed⟩

/-- A keyword is unknown exactly when it differs from every spelling. -/
theorem keyword?_eq_none_iff {α : Type} (spelling : α → String) (values : List α)
    (text : String) :
    keyword? spelling values text = none ↔
      ∀ value ∈ values, foldCase (spelling value) ≠ foldCase text := by
  simp [keyword?, sameKeyword]

/-- Of values whose spellings differ in more than case, a **keyword** is the one it spells. -/
theorem keyword?_eq_some_iff {α : Type} {spelling : α → String} {values : List α}
    (distinct : ∀ a ∈ values, ∀ b ∈ values, foldCase (spelling a) = foldCase (spelling b) → a = b)
    {text : String} {value : α} :
    keyword? spelling values text = some value ↔
      value ∈ values ∧ foldCase (spelling value) = foldCase text := by
  constructor
  · intro found
    exact ⟨List.mem_of_find?_eq_some found,
      (sameKeyword_iff _ _).mp (sameKeyword_of_keyword? found)⟩
  · rintro ⟨listed, spelled⟩
    cases found : keyword? spelling values text with
    | none => exact absurd spelled ((keyword?_eq_none_iff _ _ _).mp found value listed)
    | some other =>
      have same := (sameKeyword_iff _ _).mp (sameKeyword_of_keyword? found)
      have member := List.mem_of_find?_eq_some found
      rw [distinct other member value listed (same.trans spelled.symm)]

/-- The same for a table. -/
theorem lookup?_eq_some_iff {α : Type} {table : List (String × α)}
    (distinct : ∀ a ∈ table, ∀ b ∈ table, foldCase a.1 = foldCase b.1 → a = b) {text : String}
    {value : α} :
    lookup? table text = some value ↔
      ∃ name, (name, value) ∈ table ∧ foldCase name = foldCase text := by
  rw [lookup?, Option.map_eq_some_iff]
  constructor
  · rintro ⟨⟨name, value⟩, found, rfl⟩
    exact ⟨name, (keyword?_eq_some_iff distinct).mp found⟩
  · rintro ⟨name, listed, same⟩
    exact ⟨(name, value), (keyword?_eq_some_iff distinct).mpr ⟨listed, same⟩, rfl⟩

end WafRules.Text
