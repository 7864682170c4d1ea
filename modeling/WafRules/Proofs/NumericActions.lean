import Mathlib.Data.List.Basic
import WafRules.Proofs.Faults.Actions
import WafRules.Proofs.Numerals
import WafRules.Proofs.WellFormed.Actions

/-!
# Actions with numbers

Seven actions store a number.  What they take is a numeral of any length whose number, however
large, is compared with the bounds of the action; a phase and a severity may also be named.
Everything else is refused, and the place of the error is that of the value.

Whether a value is taken is a property of its text, `Keyword.Denotes`, that mentions no reader.  A
result is then compared with a property of values as a whole (`Exact`): it is the one value with the
property, or else there is none and the error stands at a given place.  The readers of numbers, of
phases and of severities are each exact for what they read, and an action is exact because the one
reader it calls is.

## Main Definitions

* `Action.Keyword.Denotes` — the texts by which an action is given a number.
* `Exact` — a result that is settled by a property of values, with the place of its error.

## Main Statements

* `Action.ofValue_numeric` — the values that an action with a number takes.
* `Action.read_numeric` — the same where the action stands in a list.
-/

namespace WafRules

/-! ### Numerals and keywords

Names and numerals cannot be confused, since a numeral has digits only and no name has one. -/

namespace Text

/-- A digit has no other case. -/
theorem toLower_of_isDigit {c : Char} (digit : c.isDigit = true) : c.toLower = c := by
  have digits := Char.isDigit_iff_toNat.mp digit
  refine dif_neg ?_
  rintro ⟨upper, -⟩
  have above : 65 ≤ c.toNat := upper
  have below : c.toNat ≤ 57 := digits.2
  omega

/-- A text with another character than a digit in it is no numeral, however its letters are
written. -/
theorem not_numeral_of_foldCase {name text : String} (same : foldCase name = foldCase text)
    (other : (foldCase name).all Char.isDigit = false) (n : Nat) : ¬ Numeral text.toList n := by
  rintro ⟨-, digits, -⟩
  obtain ⟨c, member, notDigit⟩ := List.all_eq_false.mp other
  rw [same, foldCase] at member
  obtain ⟨d, inText, rfl⟩ := List.mem_map.mp member
  rw [toLower_of_isDigit (digits d inText)] at notDigit
  exact notDigit (digits d inText)

end Text

theorem Severity.ofName?_eq_some_iff {text : String} {severity : Severity} :
    ofName? text = some severity ↔ Text.foldCase severity.name = Text.foldCase text := by
  have listed : severity ∈ all := by cases severity <;> decide
  rw [ofName?, Text.keyword?_eq_some_iff (by decide +kernel)]
  exact and_iff_right listed

/-- Every level in the bounds is that of one severity. -/
theorem Severity.ofLevel?_eq_some_iff {n : Nat} {severity : Severity} :
    ofLevel? n = some severity ↔ n = severity.level := by
  constructor
  · intro found
    obtain ⟨within, here⟩ := List.getElem?_eq_some_iff.mp found
    rw [level, ← here, List.Nodup.idxOf_getElem (by decide)]
  · rintro rfl
    exact ofLevel?_level severity

theorem Severity.level_injective : Function.Injective Severity.level := by
  intro first second same
  have found := ofLevel?_level first
  rw [same, ofLevel?_level] at found
  exact (Option.some.inj found).symm

/-! ### Exact results

Exactness says at once what is accepted, with which value, and where the error of everything else
is.  It passes through a constructor and through the replacement of the property by an equivalent
one, and no more than that is needed. -/

/-- Whether a result is **exactly** what a property says: it succeeds with the values that have the
property, and when there are none it is an error at a place. -/
structure Exact {α : Type} (P : α → Prop) (p : Position) (result : Except SyntaxError α) :
    Prop where
  accepts : ∀ a, result = .ok a ↔ P a
  refuses : (∀ a, ¬ P a) → ∃ cause, result = .error ⟨cause, p⟩

namespace Exact

variable {α β : Type} {P : α → Prop} {p : Position}

theorem ok {a : α} (only : ∀ b, P b ↔ a = b) : Exact P p (.ok a) where
  accepts b := by rw [only, Except.ok.injEq]
  refuses none := absurd ((only a).mpr rfl) (none a)

theorem error {cause : SyntaxCause} (none : ∀ a, ¬ P a) : Exact P p (.error ⟨cause, p⟩) where
  accepts a := ⟨nofun, fun holds => absurd holds (none a)⟩
  refuses _ := ⟨cause, rfl⟩

theorem congr {Q : α → Prop} {result : Except SyntaxError α} (exact : Exact P p result)
    (same : ∀ a, P a ↔ Q a) : Exact Q p result :=
  funext (fun a => propext (same a)) ▸ exact

theorem map {make : α → β} {Q : β → Prop} {result : Except SyntaxError α}
    (exact : Exact P p result) (made : ∀ b, Q b ↔ ∃ a, P a ∧ make a = b) :
    Exact Q p (make <$> result) where
  accepts b := by
    rw [made]
    constructor
    · intro succeeds
      cases result with
      | error e => cases succeeds
      | ok a => exact ⟨a, (exact.accepts a).mp rfl, Except.ok.inj succeeds⟩
    · rintro ⟨a, holds, rfl⟩
      rw [(exact.accepts a).mpr holds]
      rfl
  refuses none := by
    have nothing : ∀ a, ¬ P a := fun a holds => none _ ((made _).mpr ⟨a, holds, rfl⟩)
    obtain ⟨cause, refused⟩ := exact.refuses nothing
    exact ⟨cause, by rw [refused]; rfl⟩

end Exact

/-! ### Texts of numbers

A numeral is read as a number of any size and then compared with the bounds.  A number too large for
any type of the program is too large for every action as well, so nothing is lost by reading it
first. -/

namespace Action

/-- Whether an action of a keyword stores a number. -/
def Keyword.IsNumeric : Keyword → Prop
  | .number _ | .phase | .severity => True
  | _ => False

/-- The number that an action stores: that of a severity is its level. -/
def amount? : Action → Option Nat
  | .number _ n | .phase n => some n
  | .severity s => some s.level
  | _ => none

/-- Whether a text gives the action of a keyword a **number**: by a numeral within the bounds of the
action, or by a name in any case. -/
inductive Keyword.Denotes : Keyword → String → Nat → Prop
  | number {which : NumberAction} {text : String} {n : Nat}
    (numeral : Text.Numeral text.toList n) (admitted : which.Admits n) :
    Denotes (.number which) text n
  | phase {text : String} {n : Nat} (numeral : Text.Numeral text.toList n)
    (least : 1 ≤ n) (most : n ≤ 5) : Denotes .phase text n
  | phaseName {text name : String} {n : Nat}
    (named : (name, n) ∈ [("request", 2), ("response", 4), ("logging", 5)])
    (spelled : Text.foldCase name = Text.foldCase text) : Denotes .phase text n
  | severity {text : String} {n : Nat} (numeral : Text.Numeral text.toList n) (most : n ≤ 7) :
    Denotes .severity text n
  | severityName {text : String} {s : Severity} {n : Nat}
    (spelled : Text.foldCase s.name = Text.foldCase text) (leveled : s.level = n) :
    Denotes .severity text n

end Action

namespace ActionValue

/-- Reading a **numeral within bounds** is exact: the number may be of any size before the bounds
are looked at, so no numeral is refused for another reason. -/
theorem readNumeral_exact (name : String) (least most : Nat) (w : Window) :
    Exact (fun n => Text.Numeral w.text.toList n ∧ least ≤ n ∧ n ≤ most) w.position
      (readNumeral name least most w) := by
  unfold readNumeral
  cases read : Text.Decimal.read? w.text.toList with
  | none =>
    refine .error fun n => ?_
    rintro ⟨numeral, -⟩
    rw [Text.Decimal.read?_eq_some_iff.mpr numeral] at read
    cases read
  | some n =>
    have only : ∀ m, Text.Numeral w.text.toList m ↔ n = m := by
      intro m
      rw [← Text.Decimal.read?_eq_some_iff, read, Option.some.injEq]
    dsimp only
    split
    · next bounds =>
      refine .ok fun m => ?_
      rw [only]
      exact ⟨fun h => h.1, by rintro rfl; exact ⟨rfl, bounds⟩⟩
    · next outside =>
      refine .error fun m => ?_
      rintro ⟨numeral, bounds⟩
      obtain rfl := (only m).mp numeral
      exact outside bounds

/-- A **phase** is one that is named, or whose number is given. -/
theorem phase_exact (name : Token) (w : Window) :
    Exact (Action.Keyword.phase.Denotes w.text) w.position (phase ⟨name, some w⟩) := by
  have listed : ∀ {n : Nat}, Text.lookup? phaseNames w.text = some n ↔ _ :=
    Text.lookup?_eq_some_iff (by decide +kernel)
  unfold phase
  dsimp only [required, bind, Except.bind]
  cases found : Text.lookup? phaseNames w.text with
  | some phase =>
    obtain ⟨spelling, named, spelled⟩ := listed.mp found
    -- a name is no numeral, and no other name
    have other : (Text.foldCase spelling).all Char.isDigit = false := by
      have letters : ∀ entry ∈ phaseNames, (Text.foldCase entry.1).all Char.isDigit = false := by
        decide +kernel
      exact letters _ named
    refine .ok fun n => ⟨fun denotes => ?_, ?_⟩
    · cases denotes with
      | phase numeral => exact absurd numeral (Text.not_numeral_of_foldCase spelled other n)
      | phaseName named' spelled' =>
        rw [listed.mpr ⟨_, named', spelled'⟩] at found
        exact (Option.some.inj found).symm
    · rintro rfl
      exact .phaseName named spelled
  | none =>
    have unnamed : ∀ n, Action.Keyword.phase.Denotes w.text n ↔
        Text.Numeral w.text.toList n ∧ 1 ≤ n ∧ n ≤ 5 := by
      intro n
      constructor
      · intro denotes
        cases denotes with
        | phase numeral least most => exact ⟨numeral, least, most⟩
        | phaseName named spelled =>
          rw [listed.mpr ⟨_, named, spelled⟩] at found
          cases found
      · rintro ⟨numeral, least, most⟩
        exact .phase numeral least most
    exact (readNumeral_exact name.value 1 5 w).congr fun n => (unnamed n).symm

/-- A **severity** is one that is named, or whose level is given.  The two do not overlap, since no
name has a digit in it. -/
theorem severity_exact (name : Token) (w : Window) :
    Exact (fun s => Action.Keyword.severity.Denotes w.text s.level) w.position
      (severity ⟨name, some w⟩) := by
  unfold severity
  dsimp only [required, bind, Except.bind]
  cases found : Severity.ofName? w.text with
  | some severity =>
    have spelled := Severity.ofName?_eq_some_iff.mp found
    -- No name is a numeral, so a text that is named denotes nothing else.
    have other : (Text.foldCase severity.name).all Char.isDigit = false := by
      cases severity <;> decide +kernel
    refine .ok fun s => ⟨fun denotes => ?_, ?_⟩
    · cases denotes with
      | severity numeral => exact absurd numeral (Text.not_numeral_of_foldCase spelled other _)
      | severityName spelled' leveled =>
        rw [Severity.ofName?_eq_some_iff.mpr spelled'] at found
        rw [← Option.some.inj found]
        exact Severity.level_injective leveled
    · rintro rfl
      exact .severityName spelled rfl
  | none =>
    have unnamed : ∀ n, Action.Keyword.severity.Denotes w.text n ↔
        Text.Numeral w.text.toList n ∧ 0 ≤ n ∧ n ≤ 7 := by
      intro n
      constructor
      · intro denotes
        cases denotes with
        | severity numeral most => exact ⟨numeral, n.zero_le, most⟩
        | severityName spelled =>
          rw [Severity.ofName?_eq_some_iff.mpr spelled] at found
          cases found
      · rintro ⟨numeral, -, most⟩
        exact .severity numeral most
    have number := (readNumeral_exact name.value 0 7 w).congr fun n => (unnamed n).symm
    by_cases given : ∃ n, Action.Keyword.severity.Denotes w.text n
    · obtain ⟨n, denotes⟩ := given
      -- Each number up to 7 is a level, so the message about a level without a name is idle.
      obtain ⟨severity, leveled⟩ :=
        Option.isSome_iff_exists.mp (Severity.ofLevel?_isSome ((unnamed n).mp denotes).2.2)
      have read := (number.accepts n).mpr denotes
      rw [read]
      dsimp only [bind, Except.bind]
      rw [leveled]
      refine .ok fun s => ?_
      rw [← number.accepts, read, Except.ok.injEq, ← Severity.ofLevel?_eq_some_iff, leveled,
        Option.some.injEq]
    · push Not at given
      obtain ⟨cause, refused⟩ := number.refuses given
      rw [refused]
      exact .error fun s => given s.level

end ActionValue

namespace Action

/-- The **actions with numbers**: each takes exactly the texts that give it a number, which it
stores; any other text is an error at the first token of the value, or at the token behind an empty
one. -/
theorem ofValue_numeric {keyword : Keyword} (numeric : keyword.IsNumeric) (name : Token)
    (value : Window) :
    Exact (fun a => a.keyword = keyword ∧ ∃ n, keyword.Denotes value.text n ∧ a.amount? = some n)
      value.position (ofValue keyword ⟨name, some value⟩) := by
  cases keyword with
  | number which =>
    refine (ActionValue.readNumeral_exact name.value which.least which.most value).map fun a => ?_
    constructor
    · rintro ⟨stores, n, denotes, amount⟩
      cases denotes with
      | number numeral admitted =>
        refine ⟨n, ⟨numeral, (which.admits_iff n).mp admitted⟩, ?_⟩
        cases a <;> cases stores
        cases amount
        rfl
    · rintro ⟨n, ⟨numeral, bounds⟩, rfl⟩
      exact ⟨rfl, n, .number numeral ((which.admits_iff n).mpr bounds), rfl⟩
  | phase =>
    refine (ActionValue.phase_exact name value).map fun a => ?_
    constructor
    · rintro ⟨stores, n, denotes, amount⟩
      refine ⟨n, denotes, ?_⟩
      cases a <;> cases stores
      cases amount
      rfl
    · rintro ⟨n, denotes, rfl⟩
      exact ⟨rfl, n, denotes, rfl⟩
  | severity =>
    refine (ActionValue.severity_exact name value).map fun a => ?_
    constructor
    · rintro ⟨stores, n, denotes, amount⟩
      cases a <;> cases stores
      cases amount
      exact ⟨_, denotes, rfl⟩
    · rintro ⟨s, denotes, rfl⟩
      exact ⟨rfl, s.level, denotes, rfl⟩
  | _ => exact numeric.elim

/-- The **actions with numbers**, with their values in quotes or without: what follows the keyword
is taken or refused as the value alone is, and the error is at the value.  Which texts give a number
is said by `Action.Keyword.Denotes`, without a reader: a numeral within the bounds of the action or,
for a phase and a severity, a name. -/
theorem read_numeric {keyword : Keyword} (numeric : keyword.IsNumeric) (name : Token)
    (value : Window) :
    Exact (fun a => a.keyword = keyword ∧ ∃ n, keyword.Denotes value.text n ∧ a.amount? = some n)
        value.position (ofValue keyword ⟨name, some value⟩) ∧
      ∀ w rest after, w.expect .word .actionName = .ok (name, rest) →
        Keyword.ofName? name.value = some keyword →
        splitValue true rest = .ok (some value, after) →
        Action.read w =
          (fun a => (⟨a, name.position⟩, after)) <$> ofValue keyword ⟨name, some value⟩ := by
  refine ⟨ofValue_numeric numeric name value, fun w rest after expected named split => ?_⟩
  have singleWord : keyword.isSingleWord = true := by
    cases keyword with
    | number which => rfl
    | phase => rfl
    | severity => rfl
    | _ => exact numeric.elim
  rw [Action.read, expected]
  dsimp only [bind, Except.bind]
  rw [named, Option.any_some, singleWord, split]
  dsimp only
  cases ofValue keyword ⟨name, some value⟩ with
  | error e => rfl
  | ok a => rfl

/-- A rule id with zeros in front, which is the greatest there is. -/
theorem read_numeric_zeros :
    ∃ (name colon value closing : Token),
      (Keyword.number .id).IsNumeric ∧ value.value = "0004294967295" ∧
      Action.read ⟨[name, colon, value], closing⟩ =
        .ok (⟨.number .id 4294967295, name.position⟩, ⟨[], closing⟩) := by
  let name : Token := Lexer.token .word "id" ⟨none, 1, 12⟩
  let colon : Token := Lexer.token (.punct .colon) ":" ⟨none, 1, 14⟩
  let value : Token := Lexer.token .word "0004294967295" ⟨none, 1, 15⟩
  let closing : Token := Lexer.token .argumentStop "\"" ⟨none, 1, 28⟩
  have numeric : (Keyword.number .id).IsNumeric := trivial
  obtain ⟨exact, inList⟩ := read_numeric numeric name ⟨[value], closing⟩
  have numeral : Text.Numeral (Window.mk [value] closing).text.toList 4294967295 :=
    Text.Decimal.read?_eq_some_iff.mp (by decide +kernel)
  have taken := (exact.accepts (.number .id 4294967295)).mpr
    ⟨rfl, _, .number numeral ⟨by decide, by decide⟩, rfl⟩
  refine ⟨name, colon, value, closing, numeric, rfl, ?_⟩
  rw [inList ⟨[name, colon, value], closing⟩ ⟨[colon, value], closing⟩ ⟨[], closing⟩
    (by decide +kernel) (by decide +kernel) (by decide +kernel), taken]
  rfl

end Action

end WafRules
