import WafRules.Action.Reader
import WafRules.Proofs.WellFormed.Operands

/-!
# Sound settings, control options and actions

From windows of tokens that all have a text, the readers of settings, of control options and of
actions give sound values only.  The windows between the marks of a value are cut out of the window
of the action, so they are made of the same tokens.

The bounds of numbers come from the readers themselves: a numeral is read as a number of any size
and compared with its bounds afterwards, so the bounds hold of what is left.  Texts that may not be
empty are either checked by the reader or a single token, which is not empty in a solid window.

## Main Statements

* `Setting.readAuditLogParts_yields`.
* `CtlOption.read_yields`.
* `Action.ofValue_yields`, `Action.readList_yields`.
-/

namespace WafRules

/-! ### Settings

Settings are words, and a word of a solid window is not empty.  The only setting with something to
prove of its value is the list of audit log parts: a letter gives a part, so there is one at
least. -/

namespace Setting

/-- A **word of a setting** has a text. -/
theorem readWord_yields (what : Expected) {w : Window} (solid : w.Solid) :
    Yields (fun t => t.value ≠ "") (readWord what w) :=
  solid.skipBlanks.trimEnd.singleWord what

/-- There are as many **audit log parts** as there are letters, and the word has some. -/
theorem readAuditLogParts_yields {w : Window} (solid : w.Solid) :
    Yields (fun parts => parts ≠ []) (readAuditLogParts w) := by
  refine (readWord_yields .auditLogParts solid).bind fun token value => ?_
  refine (Yields.mapM (P := fun _ => True) (fun _ _ _ => trivial) token.value.toList).mono ?_
  rintro parts ⟨sameLength, -⟩
  intro nil
  rw [nil] at sameLength
  exact value (String.toList_eq_nil_iff.mp (List.length_eq_zero_iff.mp sameLength.symm))

end Setting

/-! ### Control options

An option is found in a table by its name, and the reader that stands there takes what follows the
equals sign.  What a sound option is depends on its reader, so each reader has its lemma and the
table has one for all of them. -/

namespace IdRange

/-- A text that is read as a range of ids is one that **goes upwards from one**, whether it is
written with one bound or with two. -/
theorem read?_wellFormed {cs : List Char} {ids : IdRange} (read : read? cs = some ids) :
    ids.WellFormed := by
  obtain ⟨first, -, read⟩ := Option.bind_eq_some_iff.mp read
  obtain ⟨last, readLast, read⟩ := Option.bind_eq_some_iff.mp read
  have bounded : last ≤ greatestId := by
    simpa using (Option.filter_eq_some_iff.mp readLast).2
  split at read
  · next ordered =>
    cases read
    exact ⟨ordered.1, ordered.2, bounded⟩
  · cases read

/-- A **range of ids** from a window. -/
theorem read_yields (w : Window) : Yields IdRange.WellFormed (IdRange.read w) := by
  unfold IdRange.read
  cases read : read? w.text.toList with
  | none => exact .error _
  | some ids => exact .ok (read?_wellFormed read)

end IdRange

namespace CtlOption

/-- A **tag** is never empty. -/
theorem readTag_yields {w : Window} (solid : w.Solid) :
    Yields (fun tag => tag ≠ "") (readTag w) :=
  .ite (fun _ => .error _) fun nonempty => .ok (solid.text_ne_empty nonempty)

/-- Both parts of a value with a **semicolon**. -/
theorem splitTarget_yields {w : Window} (solid : w.Solid) :
    Yields (fun result => result.1.Solid ∧ result.2.Solid) (splitTarget w) := by
  unfold splitTarget
  cases w.index? (.punct .semicolon) with
  | none => exact .error _
  | some semicolon => exact .ok ⟨solid.front semicolon, (solid.back semicolon).drop 1⟩

/-- The **target** of an option is a sound selector. -/
theorem readTarget_yields {w : Window} (solid : w.Solid) :
    Yields Selector.WellFormed (readTarget w) := by
  refine (Selector.read_yields solid).bind ?_
  rintro ⟨target, rest⟩ ⟨sound, -⟩
  exact .bind_of_forall fun _ => .ok sound

/-- The **parts** that an option names, behind either sign or none. -/
theorem readParts_yields {w : Window} (solid : w.Solid) :
    Yields CtlOption.WellFormed (readParts w) := by
  have letters (change : PartsChange) {rest : Window} (solidRest : rest.Solid) :
      Yields CtlOption.WellFormed
        (do return auditLogParts change (← Setting.readAuditLogParts rest)) :=
    (Setting.readAuditLogParts_yields solidRest).bind fun parts some => .ok some
  unfold readParts
  by_cases plus : w.startsWith (.punct .plus) = true
  · simp only [plus, if_true]
    exact letters .add (solid.drop 1)
  · by_cases minus : w.startsWith (.punct .minus) = true
    · simp only [plus, minus, if_true]
      exact letters .remove (solid.drop 1)
    · simp only [plus, minus]
      exact letters .set solid

/-- The **body processor** asks for nothing. -/
theorem readProcessor_yields (w : Window) : Yields CtlOption.WellFormed (readProcessor w) := by
  refine .bind_of_forall fun token => ?_
  split
  · exact .ok trivial
  · exact .error _

/-- Ids, and a target that is removed for them. -/
theorem readTargetById_yields {w : Window} (solid : w.Solid) :
    Yields CtlOption.WellFormed (readTargetById w) := by
  refine (splitTarget_yields solid).bind ?_
  rintro ⟨ids, target⟩ ⟨-, solidTarget⟩
  refine (IdRange.read_yields ids).bind fun range sound => ?_
  exact (readTarget_yields solidTarget).bind fun selector targetSound => .ok ⟨sound, targetSound⟩

/-- A tag, and a target that is removed for it. -/
theorem readTargetByTag_yields {w : Window} (solid : w.Solid) :
    Yields CtlOption.WellFormed (readTargetByTag w) := by
  refine (splitTarget_yields solid).bind ?_
  rintro ⟨tag, target⟩ ⟨solidTag, solidTarget⟩
  refine (readTag_yields solidTag).bind fun text named => ?_
  exact (readTarget_yields solidTarget).bind fun selector targetSound => .ok ⟨named, targetSound⟩

/-- Every reader of a value gives a sound option. -/
theorem readers_yields {name : String} {read : Window → Except SyntaxError CtlOption}
    (listed : (name, read) ∈ readers) {w : Window} (solid : w.Solid) :
    Yields CtlOption.WellFormed (read w) := by
  simp only [readers, List.mem_cons, Prod.mk.injEq, List.not_mem_nil, or_false] at listed
  rcases listed with ⟨-, rfl⟩ | ⟨-, rfl⟩ | ⟨-, rfl⟩ | ⟨-, rfl⟩ | ⟨-, rfl⟩ | ⟨-, rfl⟩ |
    ⟨-, rfl⟩ | ⟨-, rfl⟩ | ⟨-, rfl⟩ | ⟨-, rfl⟩
  · exact .map_of_forall fun _ => trivial
  · exact readParts_yields solid
  · exact .map_of_forall fun _ => trivial
  · exact .map_of_forall fun _ => trivial
  · exact readProcessor_yields w
  · exact .map_of_forall fun _ => trivial
  · exact (IdRange.read_yields w).map fun ids sound => sound
  · exact (readTag_yields solid).map fun tag named => named
  · exact readTargetById_yields solid
  · exact readTargetByTag_yields solid

/-- A **control option** names what it changes. -/
theorem read_yields {w : Window} (solid : w.Solid) :
    Yields CtlOption.WellFormed (CtlOption.read w) := by
  refine (solid.expect .word .ctlOption).bind ?_
  rintro ⟨name, rest⟩ ⟨-, solidRest⟩
  refine (solidRest.expect (.punct .equals) .ctlValue).bind ?_
  rintro ⟨equals, value⟩ ⟨-, solidValue⟩
  cases found : Text.lookup? readers name.value with
  | none => exact .error _
  | some read =>
    obtain ⟨spelling, listed⟩ := Text.exists_mem_of_lookup? found
    exact readers_yields listed solidValue

end CtlOption

/-! ### Collections

Three actions write to variables, and each of them divides its value into windows before any text is
read.  A part that may not be empty is checked as a window; that a window with a token in it holds a
string that says something is known of solid windows. -/

/-- The **member of a collection** has both names: each is read from a window that is not empty, and
such a window holds a string that says something. -/
theorem Member.read_yields (action : VariableAction) {w : Window} (solid : w.Solid) :
    Yields Member.WellFormed (Member.read action w) := by
  unfold Member.read
  cases w.indexOutsideMacros? (.punct .dot) with
  | none => exact .error _
  | some dot =>
    refine .ite (fun _ => .error _) fun collection => ?_
    refine .ite (fun _ => .error _) fun name => ?_
    refine (ExpandableString.readValue_filled (solid.front dot) collection).bind fun c filled => ?_
    refine (ExpandableString.readValue_filled ((solid.back dot).drop 1) name).bind fun n named => ?_
    exact .ok ⟨filled, named⟩

namespace VarChange

/-- An **amount** says something, unlike a value to set, which may be empty. -/
theorem readAmount_yields {w : Window} (solid : w.Solid) :
    Yields ExpandableString.Filled (readAmount w) :=
  .ite (fun _ => .error _) fun nonempty => ExpandableString.readValue_filled solid nonempty

/-- The change after an equals sign is sound, and has a modifier as its operation takes one. -/
theorem read_yields {w : Window} (solid : w.Solid) :
    Yields (fun change : VarChange => change.WellFormed ∧
      (change.modifier.isSome ↔ change.name ∈ ["Set", "Add", "Subtract"])) (VarChange.read w) := by
  refine .ite (fun _ => (readAmount_yields (solid.drop 1)).map fun amount filled => ?_) ?_
  · refine ⟨?_, by simp [add, name, VarOperation.name]⟩
    rintro _ ⟨⟩
    exact filled
  · intro _
    refine .ite (fun _ => (readAmount_yields (solid.drop 1)).map fun amount filled => ?_) ?_
    · refine ⟨?_, by simp [subtract, name, VarOperation.name]⟩
      rintro _ ⟨⟩
      exact filled
    · intro _
      refine (ExpandableString.readValue_yields solid).map fun value read => ?_
      refine ⟨?_, by simp [set, name, VarOperation.name]⟩
      rintro _ ⟨⟩
      exact read.1

end VarChange

namespace SetVar

/-- Both **parts of an assignment**, if there are two. -/
theorem splitAssignment_solid {w : Window} (solid : w.Solid) :
    (splitAssignment w).1.Solid ∧ ∀ assignment, (splitAssignment w).2 = some assignment →
      assignment.Solid := by
  unfold splitAssignment
  cases w.indexOutsideMacros? (.punct .equals) with
  | none => exact ⟨solid, by simp⟩
  | some equals =>
    refine ⟨solid.front equals, fun assignment same => ?_⟩
    cases same
    exact solid.back equals

/-- A **`setvar`** value.  Without an assignment the variable is set to one, or deleted where it is
marked, and neither has a modifier. -/
theorem read_yields {w : Window} (solid : w.Solid) :
    Yields SetVar.WellFormed (SetVar.read w) := by
  have solidRest := solid.ite_drop (w.startsWith (.punct .exclamation)) 1
  obtain ⟨solidTarget, solidAssignment⟩ := splitAssignment_solid solidRest
  unfold SetVar.read
  refine (Member.read_yields .setVar solidTarget).bind fun member sound => ?_
  split
  · -- without an equals sign there is no modifier, and neither operation takes one
    split
    · exact .ok ⟨sound, trivial, by simp [VarChange.delete, VarChange.name, VarOperation.name]⟩
    · exact .ok ⟨sound, trivial, by simp [VarChange.setToOne, VarChange.name, VarOperation.name]⟩
  · next assignment found =>
    refine .ite (fun _ => .error _) fun _ => ?_
    refine (VarChange.read_yields ((solidAssignment assignment found).drop 1)).bind ?_
    intro change changeSound
    exact .ok ⟨sound, changeSound.1, changeSound.2⟩

end SetVar

/-- An **`expirevar`** value. -/
theorem ExpireVar.read_yields {w : Window} (solid : w.Solid) :
    Yields ExpireVar.WellFormed (ExpireVar.read w) := by
  unfold ExpireVar.read
  cases w.indexOutsideMacros? (.punct .equals) with
  | none => exact .error _
  | some equals =>
    refine (Member.read_yields .expireVar (solid.front equals)).bind fun member sound => ?_
    refine .ite (fun _ => .error _) fun seconds => ?_
    refine (ExpandableString.readValue_filled ((solid.back equals).drop 1) seconds).bind ?_
    intro time filled
    exact .ok ⟨sound, filled⟩

/-- An **`initcol`** value. -/
theorem InitCol.read_yields {w : Window} (solid : w.Solid) :
    Yields InitCol.WellFormed (InitCol.read w) := by
  unfold InitCol.read
  cases w.index? (.punct .equals) with
  | none => exact .error _
  | some equals =>
    refine ((solid.front equals).singleWord .collectionName).bind fun collection named => ?_
    refine .ite (fun _ => .error _) fun key => ?_
    refine (ExpandableString.readValue_filled ((solid.back equals).drop 1) key).bind ?_
    intro text filled
    exact .ok ⟨named, filled⟩

/-! ### Values of actions

What an action takes is said by its keyword, and its value is a window or nothing.  An absent value
is solid as nothing is asked of it. -/

namespace ActionValue

/-- Whether the value of an action, if it has one, is a window without empty tokens. -/
def Solid (v : ActionValue) : Prop := ∀ w, v.window = some w → w.Solid

variable {v : ActionValue}

/-- A value that **has to be there**. -/
theorem required_yields (solid : v.Solid) : Yields Window.Solid v.required := by
  unfold required
  cases found : v.window with
  | none => exact .error _
  | some w => exact .ok (solid w found)

/-- A value that is a **text with references**; it may be empty. -/
theorem expandable_yields (solid : v.Solid) : Yields ExpandableString.WellFormed v.expandable :=
  (required_yields solid).bind fun _ solidWindow =>
    (ExpandableString.readValue_yields solidWindow).mono fun _ read => read.1

/-- A **number is in its bounds**, whichever they are. -/
theorem readNumeral_yields (name : String) (least most : Nat) (w : Window) :
    Yields (fun n => least ≤ n ∧ n ≤ most) (readNumeral name least most w) := by
  unfold readNumeral
  cases Text.Decimal.read? w.text.toList with
  | none => exact .error _
  | some n => exact .ite (fun bounds => .ok bounds) fun _ => .error _

/-- The same for the number of an action. -/
theorem numeral_yields (solid : v.Solid) (least most : Nat) :
    Yields (fun n => least ≤ n ∧ n ≤ most) (v.numeral least most) :=
  (required_yields solid).bind fun w _ => readNumeral_yields v.name.value least most w

/-- A **phase** by name is one of those that can be written as numbers. -/
theorem phase_yields (solid : v.Solid) : Yields (fun n => 1 ≤ n ∧ n ≤ 5) v.phase := by
  refine (required_yields solid).bind fun w _ => ?_
  cases found : Text.lookup? phaseNames w.text with
  | none => exact readNumeral_yields v.name.value 1 5 w
  | some n =>
    obtain ⟨name, listed⟩ := Text.exists_mem_of_lookup? found
    have numbered : ∀ entry ∈ phaseNames, 1 ≤ entry.2 ∧ entry.2 ≤ 5 := by decide
    exact .ok (numbered _ listed)

end ActionValue

/-! ### Actions

The readers of values are put together by the keyword.  A list of actions is sound when each of them
is, and the window gets shorter by one action at a time, staying solid. -/

/-- What is said of a number in a sound document, and **the bounds the reader checks**, are the
same. -/
theorem NumberAction.admits_iff (which : NumberAction) (n : Nat) :
    which.Admits n ↔ which.least ≤ n ∧ n ≤ which.most := by
  cases which <;> simp [Admits, least, most]

namespace Action

/-- Whatever a keyword asks for, its **value** is one that it takes.  The bounds of a number are
those of the reader, which the action is asked to admit. -/
theorem ofValue_yields (keyword : Keyword) {v : ActionValue} (solid : v.Solid) :
    Yields Action.WellFormed (ofValue keyword v) := by
  have required := ActionValue.required_yields solid
  cases keyword with
  | flag which => exact .map_of_forall fun _ => trivial
  | text which => exact (v.expandable_yields solid).map fun value sound => sound
  | number which =>
    refine (v.numeral_yields solid which.least which.most).map fun n bounds => ?_
    exact (which.admits_iff n).mpr bounds
  | label which => exact .map_of_forall fun _ => trivial
  | phase => exact (v.phase_yields solid).map fun n bounds => bounds
  | severity => exact .map_of_forall fun _ => trivial
  | transform => exact .map_of_forall fun _ => trivial
  | setVar =>
    refine required.bind fun w solidWindow => ?_
    exact (SetVar.read_yields solidWindow).bind fun value sound => .ok sound
  | expireVar =>
    refine required.bind fun w solidWindow => ?_
    exact (ExpireVar.read_yields solidWindow).bind fun value sound => .ok sound
  | initCol =>
    refine required.bind fun w solidWindow => ?_
    exact (InitCol.read_yields solidWindow).bind fun value sound => .ok sound
  | ctl =>
    refine required.bind fun w solidWindow => ?_
    exact (CtlOption.read_yields solidWindow).bind fun option sound => .ok sound

/-- The value of an action is cut out of the window of the action. -/
theorem splitValue_yields (singleWord : Bool) {w : Window} (solid : w.Solid) :
    Yields (fun result => (∀ value, result.1 = some value → value.Solid) ∧ result.2.Solid)
      (splitValue singleWord w) := by
  have start : (w.drop 1).skipBlanks.Solid := (solid.drop 1).skipBlanks
  refine .ite (fun _ => .ite (fun _ => ?_) fun _ => ?_) fun _ => .ok ⟨by simp, solid⟩
  · -- between the quotes, where an empty value is allowed
    have solidBody := start.drop 1
    unfold quotedValue
    cases ((w.drop 1).skipBlanks.drop 1).index? (.punct .singleQuote) with
    | none => exact .error _
    | some close =>
      refine .ok ⟨fun value same => ?_, (solidBody.back close).drop 1⟩
      cases same
      exact solidBody.front close
  · refine .ok ⟨fun value same => ?_, start.back _⟩
    cases same
    exact (start.front _).trimEnd

/-- An **action** with its value, and what follows it. -/
theorem read_yields {w : Window} (solid : w.Solid) :
    Yields (fun result => result.1.node.WellFormed ∧ result.2.Solid) (Action.read w) := by
  refine (solid.expect .word .actionName).bind ?_
  rintro ⟨name, rest⟩ ⟨-, solidRest⟩
  refine (splitValue_yields _ solidRest).bind ?_
  rintro ⟨value, after⟩ ⟨solidValue, solidAfter⟩
  cases Keyword.ofName? name.value with
  | none => exact .error _
  | some keyword =>
    refine (ofValue_yields keyword (v := ⟨name, value⟩) solidValue).bind fun action sound => ?_
    exact .ok ⟨sound, solidAfter⟩

/-- What is left behind **separators**. -/
theorem skipSeparators_solid {w : Window} (solid : w.Solid) : (skipSeparators w).Solid :=
  fun t member => solid t ((skipSeparators_suffix w).subset member)

/-- The actions that are read **behind those that are there**. -/
theorem readOnto_yields {before : Array (Positioned Action)} {w : Window}
    (sound : ∀ a ∈ before, a.node.WellFormed) (solid : w.Solid) :
    Yields (fun actions => ∀ a ∈ actions, a.node.WellFormed) (readOnto before w) := by
  fun_induction readOnto before w with
  | case1 before w ended => exact .ok fun a member => sound a (Array.mem_toList_iff.mp member)
  | case2 before w goesOn e read => exact .error e
  | case3 before w goesOn action rest read separated ih =>
    obtain ⟨actionSound, solidRest⟩ := read_yields solid _ read
    exact ih (Array.forall_mem_push.mpr ⟨actionSound, sound⟩) (skipSeparators_solid solidRest)
  | case4 before w goesOn action rest read joined => exact .error _

/-- The **actions of a rule.** -/
theorem readList_yields {w : Window} (solid : w.Solid) :
    Yields (fun actions => ∀ a ∈ actions, a.node.WellFormed) (readList w) :=
  readOnto_yields (by simp) (skipSeparators_solid solid)

end Action

end WafRules
