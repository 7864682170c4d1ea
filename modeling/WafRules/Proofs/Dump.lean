import Mathlib.Data.List.Nodup
import Mathlib.Data.Set.Function
import WafRules.Command
import WafRules.Proofs.Json
import WafRules.Proofs.Network
import WafRules.Proofs.WellFormed.Documents

/-!
# Dumps tell documents apart

A dump is meant for other programs, which see nothing of a document but its dump.  Nothing that a
document says is lost on the way: the dump of every part determines the part, and what is written
for the dump determines the dump.

One type of part needs care.  A built-in variable and a collection of the user are both dumped as
their names, so a collection named like a built-in variable would be dumped like that variable.
No text names such a collection, which is what well-formed variables say.  The dumps of all parts
with a variable in them tell well-formed parts apart; the dumps of the other parts tell all apart.

The rest is arranged so that each kind of part is treated where it is defined.  A dump is a tagged
choice or an object with fixed fields.  For a choice the tag is compared first (`Json.label?`): it
names the constructor, and with the constructors equal the values under the tags are compared one by
one.  For an object the fields are compared in order, and a field that may be left out is the one
place where the shape of the object depends on what it holds (`Json.optionalField_append_inj`).

## Main Statements

* `Document.toJson_injOn` — well-formed documents have different dumps.
* `Command.eq_of_dump_eq` — documents of texts that are dumped alike are the same.
-/

namespace WafRules

/-! ### Names

Each enumeration is dumped as a name, and no two of its values share one.  The names are listed and
compared as a whole, so a value that is added has to be given a name of its own to keep the proof.
-/

/-- Values whose names are listed without repetition have names of their own. -/
theorem injective_of_nodup_map {α : Type} {name : α → String} (all : List α)
    (complete : ∀ value, value ∈ all) (distinct : (all.map name).Nodup) :
    Function.Injective name := by
  intro a b same
  exact List.inj_on_of_nodup_map distinct (complete a) (complete b) same

theorem BuiltIn.name_injective : Function.Injective BuiltIn.name :=
  injective_of_nodup_map all mem_all (by decide +kernel)

theorem SelectorMode.name_injective : Function.Injective SelectorMode.name :=
  injective_of_nodup_map [add, remove, count] (fun mode => by cases mode <;> decide) (by decide)

theorem Comparison.dumpName_injective : Function.Injective Comparison.dumpName :=
  injective_of_nodup_map all (fun how => by cases how <;> decide) (by decide)

theorem Detector.dumpName_injective : Function.Injective Detector.dumpName :=
  injective_of_nodup_map all (fun what => by cases what <;> decide) (by decide)

theorem RuleEngineMode.name_injective : Function.Injective RuleEngineMode.name :=
  injective_of_nodup_map all (fun mode => by cases mode <;> decide) (by decide)

theorem AuditEngineMode.name_injective : Function.Injective AuditEngineMode.name :=
  injective_of_nodup_map all (fun mode => by cases mode <;> decide) (by decide)

theorem AuditLogPart.name_injective : Function.Injective AuditLogPart.name :=
  injective_of_nodup_map all (fun part => by cases part <;> decide) (by decide)

theorem BodyProcessor.name_injective : Function.Injective BodyProcessor.name :=
  injective_of_nodup_map all (fun processor => by cases processor <;> decide) (by decide)

theorem PartsChange.name_injective : Function.Injective PartsChange.name :=
  injective_of_nodup_map [set, add, remove] (fun change => by cases change <;> decide) (by decide)

/-- A change of a variable shows its **operation** by name; the modifier is a field of its own. -/
theorem VarOperation.name_injective : Function.Injective VarOperation.name :=
  injective_of_nodup_map [set, setToOne, add, subtract, delete]
    (fun operation => by cases operation <;> decide) (by decide)

theorem Severity.name_injective : Function.Injective Severity.name :=
  injective_of_nodup_map all (fun severity => by cases severity <;> decide) (by decide)

theorem Transform.name_injective : Function.Injective Transform.name :=
  injective_of_nodup_map all (fun transform => by cases transform <;> decide) (by decide +kernel)

/-- **Keywords of actions** have names of their own in a dump, which are not always their
spellings. -/
theorem Action.Keyword.dumpName_injective : Function.Injective Action.Keyword.dumpName :=
  injective_of_nodup_map all mem_all (by decide +kernel)

/-- **Keywords of directives** are dumped as they are spelled. -/
theorem Directive.Keyword.spelling_injective : Function.Injective Directive.Keyword.spelling :=
  injective_of_nodup_map all mem_all (by decide)

/-! ### Objects and lists

The shapes that dumps are put together from.  Each lemma takes apart one of them: from two equal
dumps of that shape it gets equal pieces, and asks of the pieces only what it needs to go on. -/

namespace Json

/-- A text is dumped as itself. -/
theorem text_injective : Function.Injective Json.text := fun _ _ same => Json.text.inj same

/-- An object of a **single field** shows the field's name and its value. -/
theorem field_inj {m n : String} {a b : Json} (same : [(m, a)] = [(n, b)]) : m = n ∧ a = b :=
  Prod.mk.inj (List.cons.inj same).1

/-- A choice shows its name and its value. -/
theorem choice_inj {m n : String} {a b : Json} (same : choice m a = choice n b) :
    m = n ∧ a = b :=
  field_inj (Json.object.inj same)

/-- The name under which a choice is dumped. -/
def label? : Json → Option String
  | .text name => some name
  | .object ((name, _) :: _) => some name
  | _ => none

/-- A field that may be left out shows its value, if no other field has its name. -/
theorem optionalField_append_inj {α : Type} {name : String} {toJson : α → Json}
    (injective : Function.Injective toJson) {a b : Option α} {r s : List (String × Json)}
    (notInR : name ∉ r.map Prod.fst) (notInS : name ∉ s.map Prod.fst)
    (same : optionalField name toJson a ++ r = optionalField name toJson b ++ s) :
    a = b ∧ r = s := by
  cases a with
  | none =>
    cases b with
    | none => exact ⟨rfl, same⟩
    | some b =>
      rw [show r = (name, toJson b) :: s from same] at notInR
      exact absurd List.mem_cons_self notInR
  | some a =>
    cases b with
    | none =>
      rw [← show (name, toJson a) :: r = s from same] at notInS
      exact absurd List.mem_cons_self notInS
    | some b =>
      obtain ⟨fields, rests⟩ := List.cons.inj same
      obtain rfl := injective (Prod.mk.inj fields).2
      exact ⟨rfl, rests⟩

/-- A list shows its items, if each of them shows. -/
theorem list_map_injOn {α : Type} {toJson : α → Json} {sound : Set α}
    (injective : Set.InjOn toJson sound) :
    Set.InjOn (fun items : List α => Json.list (items.map toJson))
      {items | ∀ a ∈ items, a ∈ sound} := by
  intro xs soundXs ys soundYs same
  have items : xs.map toJson = ys.map toJson := Json.list.inj same
  clear same
  induction xs generalizing ys with
  | nil => exact (List.map_eq_nil_iff.mp items.symm).symm
  | cons x xs ih =>
    cases ys with
    | nil => cases items
    | cons y ys =>
      obtain ⟨soundX, soundRest⟩ := List.forall_mem_cons.mp soundXs
      obtain ⟨soundY, soundOthers⟩ := List.forall_mem_cons.mp soundYs
      obtain ⟨first, rest⟩ := List.cons.inj items
      rw [injective soundX soundY first, ih soundRest soundOthers rest]

/-- The same for items that all show, whether they are sound or not. -/
theorem list_map_injective {α : Type} {toJson : α → Json} (injective : Function.Injective toJson) :
    Function.Injective fun items : List α => Json.list (items.map toJson) := by
  intro xs ys same
  exact List.map_injective_iff.mpr injective (Json.list.inj same)

end Json

/-! ### Places and strings

The parts of a value that have no choices in them.  Their dumps list the fields in a fixed order, so
equal dumps have equal fields. -/

/-- The file is left out only of the dump of a place in an anonymous text. -/
theorem Position.toJson_injective : Function.Injective Position.toJson := by
  rintro ⟨file, line, column⟩ ⟨file', line', column'⟩ same
  obtain ⟨rfl, places⟩ := Json.optionalField_append_inj Json.text_injective
    (by simp) (by simp) (Json.object.inj same)
  simp only [List.cons.injEq, Prod.mk.injEq, Json.number.injEq, true_and, and_true] at places
  obtain ⟨rfl, rfl⟩ := places
  rfl

/-- A reference without a collection is dumped with null, which no collection is. -/
theorem MacroRef.toJson_injective : Function.Injective MacroRef.toJson := by
  rintro ⟨collection, name⟩ ⟨collection', name'⟩ same
  simp only [toJson, Json.object.injEq, List.cons.injEq, Prod.mk.injEq, Json.text.injEq, true_and,
    and_true] at same
  obtain ⟨collections, rfl⟩ := same
  cases collection with
  | none =>
    cases collection' with
    | none => rfl
    | some _ => cases collections
  | some _ =>
    cases collection' with
    | none => cases collections
    | some _ =>
      obtain rfl := Json.text.inj collections
      rfl

/-- A part of a string is tagged as text or as a reference. -/
theorem StringPart.toJson_injective : Function.Injective StringPart.toJson := by
  intro a b same
  cases a with
  | literal text =>
    cases b with
    | literal text' => rw [Json.text.inj (Json.choice_inj same).2]
    | reference m => exact absurd (Json.choice_inj same).1 (by decide)
  | reference m =>
    cases b with
    | literal text => exact absurd (Json.choice_inj same).1 (by decide)
    | reference m' => rw [MacroRef.toJson_injective (Json.choice_inj same).2]

/-- A **string** is dumped as the list of its parts, so texts that are the same when written out but
are divided differently have different dumps. -/
theorem ExpandableString.toJson_injective : Function.Injective ExpandableString.toJson := by
  rintro ⟨parts⟩ ⟨parts'⟩ same
  obtain rfl : parts = parts' :=
    Json.list_map_injective StringPart.toJson_injective (Json.choice_inj same).2
  rfl

/-! ### Selectors

The members of a selector are left out when it has none, and this is the optional field of its dump.
Everything else about a selector is always there. -/

/-- A collection of the user is not dumped like a built-in variable. -/
theorem Variable.name_ne_of_wellFormed {name : String} (sound : (user name).WellFormed)
    (v : BuiltIn) : v.name ≠ name := by
  intro same
  exact sound.2 v (by rw [same])

/-- **Sound variables** have different names. -/
theorem Variable.name_injOn : Set.InjOn Variable.name {v | v.WellFormed} := by
  intro v soundV w soundW same
  cases v with
  | builtIn v =>
    cases w with
    | builtIn w => rw [BuiltIn.name_injective same]
    | user name => exact absurd same (name_ne_of_wellFormed soundW v)
  | user name =>
    cases w with
    | builtIn w => exact absurd same.symm (name_ne_of_wellFormed soundV w)
    | user name' =>
      obtain rfl : name = name' := same
      rfl

/-- A **member** of a collection is tagged as a key, or as an expression. -/
theorem MemberPattern.toJson_injective : Function.Injective MemberPattern.toJson := by
  intro a b same
  cases a with
  | key text =>
    cases b with
    | key text' => rw [Json.text.inj (Json.choice_inj same).2]
    | regex pattern => exact absurd (Json.choice_inj same).1 (by decide)
  | regex pattern =>
    cases b with
    | key text => exact absurd (Json.choice_inj same).1 (by decide)
    | regex pattern' => rw [Json.text.inj (Json.choice_inj same).2]

/-- **Sound selectors** have different dumps. -/
theorem Selector.toJson_injOn : Set.InjOn Selector.toJson {s | s.WellFormed} := by
  rintro ⟨mode, subject, member, place⟩ sound ⟨mode', subject', member', place'⟩ sound' same
  simp only [toJson, Json.object.injEq, List.cons_append, List.nil_append, List.cons.injEq,
    Prod.mk.injEq, Variable.toJson, Json.text.injEq, true_and] at same
  obtain ⟨modes, subjects, rest⟩ := same
  obtain ⟨rfl, places⟩ := Json.optionalField_append_inj MemberPattern.toJson_injective
    (by simp) (by simp) rest
  obtain rfl := SelectorMode.name_injective modes
  obtain rfl := Variable.name_injOn sound.subject sound'.subject subjects
  simp only [List.cons.injEq, Prod.mk.injEq, true_and, and_true] at places
  obtain rfl := Position.toJson_injective places
  rfl

/-! ### Operators

An operator without its argument is a `Label`, and its dump is tagged with the label's name.  Having
a type of labels makes the comparison of tags one statement about a finite list of names, where
comparing operators pairwise would take a case for every two of them. -/

/-- A **range of addresses** is dumped as it is written in full, with its prefix length. -/
theorem Network.toJson_injective : Function.Injective Network.toJson := by
  intro m n same
  exact Network.renderFull_injective (Json.text.inj same)

/-- The two **bounds of a range**. -/
theorem Json.range_inj {first last first' last' : Nat}
    (same : range first last = range first' last') : first = first' ∧ last = last' := by
  simpa [range] using same

/-- A **range of bytes** is dumped by its bounds. -/
theorem ByteRange.toJson_injective : Function.Injective ByteRange.toJson := by
  rintro ⟨first, last⟩ ⟨first', last'⟩ same
  obtain ⟨rfl, rfl⟩ := Json.range_inj same
  rfl

namespace Operator.Kind

/-- An operator without its argument, which is what its dump is named for. -/
inductive Label
  | regex
  | compare (how : Comparison)
  | phrases | phraseFiles | addresses | addressFile | blockList | byteRanges
  | detect (what : Detector)

namespace Label

/-- The name in a dump. -/
def dumpName : Label → String
  | regex => "Regex"
  | compare how => how.dumpName
  | phrases => "Pm"
  | phraseFiles => "PmFromFile"
  | addresses => "IpMatch"
  | addressFile => "IpMatchFromFile"
  | blockList => "Rbl"
  | byteRanges => "ValidateByteRange"
  | detect what => what.dumpName

/-- Every operator, once. -/
def all : List Label :=
  [regex, phrases, phraseFiles, addresses, addressFile, blockList, byteRanges] ++
    Comparison.all.map compare ++ Detector.all.map detect

/-- The list of operators is **complete**. -/
theorem mem_all (label : Label) : label ∈ all := by
  cases label with
  | compare how => cases how <;> simp [all, Comparison.all]
  | detect what => cases what <;> simp [all, Detector.all]
  | _ => simp [all]

/-- Operators have **names of their own** in a dump. -/
theorem dumpName_injective : Function.Injective dumpName :=
  injective_of_nodup_map all mem_all (by decide +kernel)

end Label

/-- The operator without its argument. -/
def label : Kind → Label
  | regex _ => .regex
  | compare how _ => .compare how
  | phrases _ => .phrases
  | phraseFiles _ => .phraseFiles
  | addresses _ => .addresses
  | addressFile _ => .addressFile
  | blockList _ => .blockList
  | byteRanges _ => .byteRanges
  | detect what => .detect what

/-- The **tag of an operator's dump** is the operator's name. -/
theorem label?_toJson (kind : Kind) : kind.toJson.label? = some kind.label.dumpName := by
  cases kind <;> rfl

/-- Operators that are dumped alike are **the same but for their arguments**. -/
theorem label_eq_of_toJson_eq {a b : Kind} (same : a.toJson = b.toJson) : a.label = b.label := by
  apply Label.dumpName_injective
  apply Option.some.inj
  rw [← label?_toJson, ← label?_toJson, same]

/-- **Operators** have different dumps: the name shows the operator, and then the value shows the
argument. -/
theorem toJson_injective : Function.Injective toJson := by
  intro a b same
  have labels := label_eq_of_toJson_eq same
  -- Operators of two shapes have two labels, which leaves the cases of one shape.
  cases a with
  | regex pattern =>
    cases b with
    | regex pattern' => rw [Json.text.inj (Json.choice_inj same).2]
    | _ => cases labels
  | compare how argument =>
    cases b with
    | compare how' argument' =>
      obtain rfl := Label.compare.inj labels
      rw [ExpandableString.toJson_injective (Json.choice_inj same).2]
    | _ => cases labels
  | phrases words =>
    cases b with
    | phrases words' =>
      rw [Json.list_map_injective Json.text_injective (Json.choice_inj same).2]
    | _ => cases labels
  | phraseFiles files =>
    cases b with
    | phraseFiles files' =>
      rw [Json.list_map_injective Json.text_injective (Json.choice_inj same).2]
    | _ => cases labels
  | addresses networks =>
    cases b with
    | addresses networks' =>
      rw [Json.list_map_injective Network.toJson_injective (Json.choice_inj same).2]
    | _ => cases labels
  | addressFile file =>
    cases b with
    | addressFile file' => rw [Json.text.inj (Json.choice_inj same).2]
    | _ => cases labels
  | blockList host =>
    cases b with
    | blockList host' => rw [Json.text.inj (Json.choice_inj same).2]
    | _ => cases labels
  | byteRanges ranges =>
    cases b with
    | byteRanges ranges' =>
      rw [Json.list_map_injective ByteRange.toJson_injective (Json.choice_inj same).2]
    | _ => cases labels
  | detect what =>
    cases b with
    | detect what' => rw [Label.detect.inj labels]
    | _ => cases labels

end Operator.Kind

/-- An **operator at its place**, negated or not. -/
theorem Operator.toJson_injective : Function.Injective Operator.toJson := by
  rintro ⟨kind, negated, place⟩ ⟨kind', negated', place'⟩ same
  simp only [toJson, Json.object.injEq, List.cons.injEq, Prod.mk.injEq, Json.bool.injEq, true_and,
    and_true] at same
  obtain ⟨kinds, rfl, places⟩ := same
  rw [Kind.toJson_injective kinds, Position.toJson_injective places]

/-! ### Actions

For actions the keyword plays the part of the label.  The one action whose value depends on what
well-formed selectors are is the control option, since its target is a selector; all other values
are told apart by their dumps whether they are sound or not. -/

/-- Audit log parts are dumped as the **list of their names**, in order. -/
theorem AuditLogPart.listToJson_injective : Function.Injective AuditLogPart.listToJson :=
  Json.list_map_injective fun _ _ same => name_injective (Json.text.inj same)

/-- A **range of ids** is dumped by its bounds. -/
theorem IdRange.toJson_injective : Function.Injective IdRange.toJson := by
  rintro ⟨first, last⟩ ⟨first', last'⟩ same
  obtain ⟨rfl, rfl⟩ := Json.range_inj same
  rfl

/-- **Sound control options** have different dumps.  Their names are different, so the name tells
which option it is, and the value is then that of one option. -/
theorem CtlOption.toJson_injOn : Set.InjOn CtlOption.toJson {o | o.WellFormed} := by
  intro a soundA b soundB same
  obtain ⟨names, values⟩ := Json.choice_inj same
  -- Soundness is needed for the two options with a target only: a target is a selector.
  cases a with
  | auditEngine mode =>
    cases b with
    | auditEngine mode' => rw [AuditEngineMode.name_injective (Json.text.inj values)]
    | _ => exact absurd names (by simp [name])
  | auditLogParts change parts =>
    cases b with
    | auditLogParts change' parts' =>
      simp only [valueToJson, Json.object.injEq, List.cons.injEq, Prod.mk.injEq, Json.text.injEq,
        true_and, and_true] at values
      rw [PartsChange.name_injective values.1, AuditLogPart.listToJson_injective values.2]
    | _ => exact absurd names (by simp [name])
  | forceRequestBodyVariable enabled =>
    cases b with
    | forceRequestBodyVariable enabled' => rw [Json.bool.inj values]
    | _ => exact absurd names (by simp [name])
  | requestBodyAccess enabled =>
    cases b with
    | requestBodyAccess enabled' => rw [Json.bool.inj values]
    | _ => exact absurd names (by simp [name])
  | requestBodyProcessor processor =>
    cases b with
    | requestBodyProcessor processor' => rw [BodyProcessor.name_injective (Json.text.inj values)]
    | _ => exact absurd names (by simp [name])
  | ruleEngine mode =>
    cases b with
    | ruleEngine mode' => rw [RuleEngineMode.name_injective (Json.text.inj values)]
    | _ => exact absurd names (by simp [name])
  | ruleRemoveById ids =>
    cases b with
    | ruleRemoveById ids' => rw [IdRange.toJson_injective values]
    | _ => exact absurd names (by simp [name])
  | ruleRemoveByTag tag =>
    cases b with
    | ruleRemoveByTag tag' => rw [Json.text.inj values]
    | _ => exact absurd names (by simp [name])
  | ruleRemoveTargetById ids target =>
    cases b with
    | ruleRemoveTargetById ids' target' =>
      simp only [valueToJson, Json.object.injEq, List.cons.injEq, Prod.mk.injEq, true_and,
        and_true] at values
      rw [IdRange.toJson_injective values.1, Selector.toJson_injOn soundA.2 soundB.2 values.2]
    | _ => exact absurd names (by simp [name])
  | ruleRemoveTargetByTag tag target =>
    cases b with
    | ruleRemoveTargetByTag tag' target' =>
      simp only [valueToJson, Json.object.injEq, List.cons.injEq, Prod.mk.injEq, Json.text.injEq,
        true_and, and_true] at values
      rw [values.1, Selector.toJson_injOn soundA.2 soundB.2 values.2]
    | _ => exact absurd names (by simp [name])

/-- The name of a change and its modifier say what is changed. -/
theorem VarChange.eq_of_name_of_modifier {a b : VarChange} (names : a.name = b.name)
    (modifiers : a.modifier = b.modifier) : a = b := by
  obtain ⟨operation, modifier⟩ := a
  obtain ⟨operation', modifier'⟩ := b
  obtain rfl : operation = operation' := VarOperation.name_injective names
  obtain rfl : modifier = modifier' := modifiers
  rfl

/-- The modifier is left out exactly for the changes without one. -/
theorem SetVar.toJson_injective : Function.Injective SetVar.toJson := by
  rintro ⟨⟨collection, name⟩, change⟩ ⟨⟨collection', name'⟩, change'⟩ same
  simp only [toJson, Member.fields, Json.object.injEq, List.cons_append, List.nil_append,
    List.cons.injEq, Prod.mk.injEq, Json.text.injEq, true_and] at same
  obtain ⟨names, collections, members, modifiers⟩ := same
  rw [← List.append_nil (Json.optionalField _ _ change.modifier),
    ← List.append_nil (Json.optionalField _ _ change'.modifier)] at modifiers
  obtain ⟨modifiers, -⟩ := Json.optionalField_append_inj ExpandableString.toJson_injective
    List.not_mem_nil List.not_mem_nil modifiers
  rw [ExpandableString.toJson_injective collections, ExpandableString.toJson_injective members,
    VarChange.eq_of_name_of_modifier names modifiers]

/-- An **`expirevar`** value shows all its fields. -/
theorem ExpireVar.toJson_injective : Function.Injective ExpireVar.toJson := by
  rintro ⟨⟨collection, name⟩, seconds⟩ ⟨⟨collection', name'⟩, seconds'⟩ same
  simp only [toJson, Member.fields, Json.object.injEq, List.cons_append, List.nil_append,
    List.cons.injEq, Prod.mk.injEq, true_and, and_true] at same
  obtain ⟨collections, members, times⟩ := same
  rw [ExpandableString.toJson_injective collections, ExpandableString.toJson_injective members,
    ExpandableString.toJson_injective times]

/-- An **`initcol`** value shows both its fields. -/
theorem InitCol.toJson_injective : Function.Injective InitCol.toJson := by
  rintro ⟨collection, key⟩ ⟨collection', key'⟩ same
  simp only [toJson, Json.object.injEq, List.cons.injEq, Prod.mk.injEq, Json.text.injEq, true_and,
    and_true] at same
  obtain ⟨rfl, keys⟩ := same
  rw [ExpandableString.toJson_injective keys]

namespace Action

/-- The **tag of an action's dump** is the name of its keyword. -/
theorem label?_toJson (a : Action) : a.toJson.label? = some a.keyword.dumpName := by
  cases a <;> rfl

/-- Actions that are dumped alike **have the same keyword**. -/
theorem keyword_eq_of_toJson_eq {a b : Action} (same : a.toJson = b.toJson) :
    a.keyword = b.keyword := by
  apply Keyword.dumpName_injective
  apply Option.some.inj
  rw [← label?_toJson, ← label?_toJson, same]

/-- **Sound actions** have different dumps: the name shows the keyword, and then the value shows
the value of the action. -/
theorem toJson_injOn : Set.InjOn toJson {a | a.WellFormed} := by
  intro a soundA b soundB same
  have keywords := keyword_eq_of_toJson_eq same
  -- A keyword belongs to one shape of value, which leaves the cases of one shape.
  cases a with
  | flag which =>
    cases b with
    | flag which' => rw [Keyword.flag.inj keywords]
    | _ => cases keywords
  | text which value =>
    cases b with
    | text which' value' =>
      rw [Keyword.text.inj keywords, ExpandableString.toJson_injective (Json.choice_inj same).2]
    | _ => cases keywords
  | number which value =>
    cases b with
    | number which' value' =>
      rw [Keyword.number.inj keywords, Json.number.inj (Json.choice_inj same).2]
    | _ => cases keywords
  | label which value =>
    cases b with
    | label which' value' =>
      rw [Keyword.label.inj keywords, Json.text.inj (Json.choice_inj same).2]
    | _ => cases keywords
  | phase n =>
    cases b with
    | phase n' => rw [Json.number.inj (Json.choice_inj same).2]
    | _ => cases keywords
  | severity s =>
    cases b with
    | severity s' => rw [Severity.name_injective (Json.text.inj (Json.choice_inj same).2)]
    | _ => cases keywords
  | transform t =>
    cases b with
    | transform t' => rw [Transform.name_injective (Json.text.inj (Json.choice_inj same).2)]
    | _ => cases keywords
  | setVar value =>
    cases b with
    | setVar value' => rw [SetVar.toJson_injective (Json.choice_inj same).2]
    | _ => cases keywords
  | expireVar value =>
    cases b with
    | expireVar value' => rw [ExpireVar.toJson_injective (Json.choice_inj same).2]
    | _ => cases keywords
  | initCol value =>
    cases b with
    | initCol value' => rw [InitCol.toJson_injective (Json.choice_inj same).2]
    | _ => cases keywords
  | ctl option =>
    cases b with
    | ctl option' => rw [CtlOption.toJson_injOn soundA soundB (Json.choice_inj same).2]
    | _ => cases keywords

/-- **Lists of actions**, each with its place. -/
theorem listToJson_injOn :
    Set.InjOn listToJson {actions | ∀ a ∈ actions, a.node.WellFormed} := by
  have positioned : Set.InjOn (fun a : Positioned Action =>
      Json.object [("node", a.node.toJson), ("position", a.position.toJson)])
      {a | a.node.WellFormed} := by
    rintro ⟨node, place⟩ sound ⟨node', place'⟩ sound' same
    simp only [Json.object.injEq, List.cons.injEq, Prod.mk.injEq, true_and, and_true] at same
    obtain rfl : node = node' := toJson_injOn sound sound' same.1
    rw [Position.toJson_injective same.2]
  exact Json.list_map_injOn positioned

end Action

/-! ### Documents

A dump of a directive is tagged with its name and goes on with the fields of that name, and a dump
of a document holds its name and its items.  The last step is about text: either form of a dump is
the written form of one JSON value, so equal texts come from equal values. -/

namespace Directive

/-- A **rule** shows its selectors, its operator and its actions. -/
theorem rule_eq_of_fields_eq {a b : Rule} (soundA : a.WellFormed) (soundB : b.WellFormed)
    (same : (Body.rule a).fields = (Body.rule b).fields) : a = b := by
  obtain ⟨selectors, operator, actions⟩ := a
  obtain ⟨selectors', operator', actions'⟩ := b
  simp only [Body.fields, Json.object.injEq, List.cons.injEq, Prod.mk.injEq, true_and,
    and_true] at same
  obtain ⟨lists, operators, lists'⟩ := same
  obtain rfl : selectors = selectors' :=
    Json.list_map_injOn Selector.toJson_injOn soundA.selectors soundB.selectors lists
  obtain rfl : actions = actions' :=
    Action.listToJson_injOn soundA.actions soundB.actions lists'
  rw [Operator.toJson_injective operators]

/-- The keyword and the fields of a **sound directive** say what it says.  The keyword is compared
apart because it is dumped apart, as the tag of the directive. -/
theorem Body.eq_of_fields_eq {a b : Body} (soundA : a.WellFormed) (soundB : b.WellFormed)
    (keywords : a.keyword = b.keyword) (same : a.fields = b.fields) : a = b := by
  cases a with
  | rule r =>
    cases b with
    | rule r' => rw [rule_eq_of_fields_eq soundA soundB same]
    | _ => cases keywords
  | action actions =>
    cases b with
    | action actions' => rw [Action.listToJson_injOn soundA soundB (Json.field_inj same).2]
    | _ => cases keywords
  | defaultAction actions =>
    cases b with
    | defaultAction actions' =>
      rw [Action.listToJson_injOn soundA soundB (Json.field_inj same).2]
    | _ => cases keywords
  | marker name =>
    cases b with
    | marker name' => rw [Json.text.inj (Json.field_inj same).2]
    | _ => cases keywords
  | componentSignature signature =>
    cases b with
    | componentSignature signature' => rw [Json.text.inj (Json.field_inj same).2]
    | _ => cases keywords
  | ruleEngine mode =>
    cases b with
    | ruleEngine mode' =>
      rw [RuleEngineMode.name_injective (Json.text.inj (Json.field_inj same).2)]
    | _ => cases keywords
  | auditEngine mode =>
    cases b with
    | auditEngine mode' =>
      rw [AuditEngineMode.name_injective (Json.text.inj (Json.field_inj same).2)]
    | _ => cases keywords
  | auditLogParts parts =>
    cases b with
    | auditLogParts parts' =>
      rw [AuditLogPart.listToJson_injective (Json.field_inj same).2]
    | _ => cases keywords
  | requestBodyAccess enabled =>
    cases b with
    | requestBodyAccess enabled' => rw [Json.bool.inj (Json.field_inj same).2]
    | _ => cases keywords
  | responseBodyAccess enabled =>
    cases b with
    | responseBodyAccess enabled' => rw [Json.bool.inj (Json.field_inj same).2]
    | _ => cases keywords

/-- **Sound directives** have different dumps. -/
theorem toJson_injOn : Set.InjOn toJson {d | d.body.WellFormed} := by
  rintro ⟨body, place⟩ sound ⟨body', place'⟩ sound' same
  obtain ⟨names, objects⟩ := Json.choice_inj same
  obtain ⟨fields, places⟩ := List.append_inj' (Json.object.inj objects) rfl
  obtain rfl : body = body' :=
    Body.eq_of_fields_eq sound sound' (Keyword.spelling_injective names) fields
  obtain rfl : place = place' := Position.toJson_injective (Json.field_inj places).2
  rfl

end Directive

/-- A **comment** shows its text and its place. -/
theorem Comment.toJson_injective : Function.Injective Comment.toJson := by
  rintro ⟨text, place⟩ ⟨text', place'⟩ same
  simp only [toJson, Json.object.injEq, List.cons.injEq, Prod.mk.injEq, Json.text.injEq, true_and,
    and_true] at same
  rw [same.1, Position.toJson_injective same.2]

/-- Whether an entry is sound: comments always are. -/
def Item.WellFormed : Item → Prop
  | comment _ => True
  | directive d => d.body.WellFormed

/-- An **entry** shows whether it is a directive or a comment. -/
theorem Item.toJson_injOn : Set.InjOn Item.toJson {item | item.WellFormed} := by
  intro a soundA b soundB same
  cases a with
  | comment c =>
    cases b with
    | comment c' => rw [Comment.toJson_injective (Json.choice_inj same).2]
    | directive d => exact absurd (Json.choice_inj same).1 (by decide)
  | directive d =>
    cases b with
    | comment c => exact absurd (Json.choice_inj same).1 (by decide)
    | directive d' => rw [Directive.toJson_injOn soundA soundB (Json.choice_inj same).2]

namespace Document

/-- The **entries of a sound document** are sound. -/
theorem item_wellFormed_of_mem {d : Document} (sound : d.WellFormed) {item : Item}
    (member : item ∈ d.items) : item.WellFormed := by
  cases item with
  | comment c => trivial
  | directive directive => exact sound directive (List.mem_filterMap.mpr ⟨_, member, rfl⟩)

/-- **Sound documents have different dumps.** -/
theorem toJson_injOn : Set.InjOn toJson {d | d.WellFormed} := by
  rintro ⟨name, items⟩ sound ⟨name', items'⟩ sound' same
  simp only [toJson, Json.object.injEq, List.cons.injEq, Prod.mk.injEq, Json.text.injEq, true_and,
    and_true] at same
  obtain ⟨rfl, lists⟩ := same
  obtain rfl : items = items' :=
    Json.list_map_injOn Item.toJson_injOn (fun _ member => item_wellFormed_of_mem sound member)
      (fun _ member => item_wellFormed_of_mem sound' member) lists
  rfl

/-- The document of a text is sound. -/
theorem wellFormed_of_parse {label text : String} {d : Document}
    (read : parse label text = .ok d) : d.WellFormed := by
  rw [parse_eq_strict, Partial.strict_eq_ok_iff] at read
  have sound := parsePartial_document_wellFormed label text
  rw [read] at sound
  exact sound

end Document

namespace Command

/-- Either form of a dump is that of a single JSON value. -/
theorem toJson_eq_of_dump_eq {pretty : Bool} {a b : Document}
    (same : dump pretty a = dump pretty b) : a.toJson = b.toJson := by
  cases pretty with
  | false => exact Json.compact_injective same
  | true => exact Json.pretty_injective same

/-- **Nothing is lost in a dump**: documents that are read from texts, and that are dumped alike in
either form, are the same. -/
theorem eq_of_dump_eq {label label' text text' : String} {a b : Document}
    (readA : Document.parse label text = .ok a) (readB : Document.parse label' text' = .ok b)
    (pretty : Bool) (same : dump pretty a = dump pretty b) : a = b :=
  Document.toJson_injOn (Document.wellFormed_of_parse readA) (Document.wellFormed_of_parse readB)
    (toJson_eq_of_dump_eq same)

/-- A rule in two spellings, with a built-in variable, which is dumped in upper case, and with a
collection of the user, which is dumped as it is written. -/
theorem eq_of_dump_eq_spelling :
    ∃ a b, Document.parse "" "SecRule args|My 1" = .ok a ∧
      Document.parse "" "secrule ARGS|My 1" = .ok b ∧ dump true a = dump true b ∧ a = b := by
  have readA : Document.parse "" "SecRule args|My 1" = .ok ⟨"", [.directive ⟨.rule
      ⟨[⟨.add, .builtIn .args, none, ⟨none, 1, 9⟩⟩, ⟨.add, .user "My", none, ⟨none, 1, 14⟩⟩],
        ⟨.regex "1", false, ⟨none, 1, 17⟩⟩, []⟩, ⟨none, 1, 1⟩⟩]⟩ := by decide +kernel
  have readB : Document.parse "" "secrule ARGS|My 1" = .ok ⟨"", [.directive ⟨.rule
      ⟨[⟨.add, .builtIn .args, none, ⟨none, 1, 9⟩⟩, ⟨.add, .user "My", none, ⟨none, 1, 14⟩⟩],
        ⟨.regex "1", false, ⟨none, 1, 17⟩⟩, []⟩, ⟨none, 1, 1⟩⟩]⟩ := by decide +kernel
  exact ⟨_, _, readA, readB, rfl, eq_of_dump_eq readA readB true rfl⟩

end Command

end WafRules
