import WafRules.Action.Reader
import WafRules.Proofs.Relocation.Operands

/-!
# Relocation of settings, control options and actions

The readers of settings, of control options and of actions move what they read, or the error they
end with, as the tokens of their window are moved.

Most values of actions hold no places at all, so for them it is the error that moves.  The places
that are read are those of actions and of the selectors that control options aim at.

## Main Statements

* `Setting.readKeyword_relocate`, `Setting.readAuditLogParts_relocate`.
* `CtlOption.read_relocate`.
* `Action.readList_relocate`.
-/

namespace WafRules

variable (f : Position → Position)

/-! ### Settings

Settings are words from a table.  Their values have no places, so the lemmas say that the same value
is found, and that the error about any other word is moved with the word. -/

namespace Setting

/-- A setting that is a single word. -/
theorem readWord_relocate (what : Expected) (w : Window) :
    readWord what (relocate f w) = relocate f (readWord what w) := by
  unfold readWord
  rw [Window.skipBlanks_relocate, Window.trimEnd_relocate]
  exact Window.singleWord_relocate f _ what

/-- A setting that is one of several keywords, whose values hold no places. -/
theorem readKeyword_relocate {α : Type} [Relocatable α] (what : Expected)
    (ofName? : String → Option α) (fixed : ∀ a : α, relocate f a = a) (w : Window) :
    readKeyword what ofName? (relocate f w) = relocate f (readKeyword what ofName? w) := by
  refine relocate_bind (readWord_relocate f what w) fun token _ => ?_
  rw [Token.value_relocate]
  cases ofName? token.value with
  | none => rfl
  | some value => exact congrArg Except.ok (fixed value).symm

/-- The mode of the engine. -/
theorem readRuleEngine_relocate (w : Window) :
    readRuleEngine (relocate f w) = relocate f (readRuleEngine w) :=
  readKeyword_relocate f _ _ (fun _ => rfl) w

/-- The mode of the audit log. -/
theorem readAuditEngine_relocate (w : Window) :
    readAuditEngine (relocate f w) = relocate f (readAuditEngine w) :=
  readKeyword_relocate f _ _ (fun _ => rfl) w

/-- A switch, which is on or off. -/
theorem readSwitch_relocate (name : String) (w : Window) :
    readSwitch name (relocate f w) = relocate f (readSwitch name w) :=
  readKeyword_relocate f _ _ (fun _ => rfl) w

/-- The parts of the audit log, by their letters. -/
theorem readAuditLogParts_relocate (w : Window) :
    readAuditLogParts (relocate f w) = relocate f (readAuditLogParts w) := by
  refine relocate_bind (readWord_relocate f _ w) fun token _ => ?_
  refine relocate_mapM (fun c => ?_) _
  cases AuditLogPart.ofLetter? c with
  | none => rfl
  | some part => rfl

end Setting

/-! ### Control options

An option that aims at a variable has a selector in it, and the selector has a place.  All others
only hold words and numbers. -/

/-- The ids that an option removes: one, or two with a minus between them. -/
theorem IdRange.read_relocate (w : Window) :
    IdRange.read (relocate f w) = relocate f (IdRange.read w) := by
  unfold IdRange.read
  rw [Window.text_relocate, Window.position_relocate]
  cases IdRange.read? w.text.toList with
  | none => rfl
  | some range => rfl

namespace CtlOption

/-- A tag, which must not be empty. -/
theorem readTag_relocate (w : Window) : readTag (relocate f w) = relocate f (readTag w) := by
  unfold readTag
  rw [Window.isEmpty_relocate, Window.first_relocate, Window.text_relocate]
  exact relocate_ite (fun _ => rfl) (fun _ => rfl)

/-- The window before a semicolon and the one behind it, where a target stands. -/
theorem splitTarget_relocate (w : Window) :
    splitTarget (relocate f w) = relocate f (splitTarget w) := by
  unfold splitTarget
  rw [Window.index?_relocate, Window.position_relocate]
  cases w.index? (.punct .semicolon) with
  | none => rfl
  | some semicolon =>
    simp only [Window.splitAt_relocate]
    rcases w.splitAt semicolon with ⟨before, after⟩
    simp only [relocate_pair, Window.drop_relocate, relocate_ok]

/-- The selector that an option aims at, the one place inside an option. -/
theorem readTarget_relocate (w : Window) :
    readTarget (relocate f w) = relocate f (readTarget w) := by
  refine relocate_bind (Selector.read_relocate f w) ?_
  rintro ⟨target, rest⟩ -
  exact relocate_bind (Window.finish_relocate f rest _) fun _ _ => rfl

/-- Parts of the audit log that are set, added or removed, by the sign in front of them. -/
theorem readParts_relocate (w : Window) :
    readParts (relocate f w) = relocate f (readParts w) := by
  have parts (change : PartsChange) (rest : Window) :
      (do return auditLogParts change (← Setting.readAuditLogParts (relocate f rest))) =
        relocate f (do return auditLogParts change (← Setting.readAuditLogParts rest) :
          Except SyntaxError CtlOption) := by
    refine relocate_bind (Setting.readAuditLogParts_relocate f rest) fun letters _ => ?_
    rw [relocate_list_eq_self fun _ => rfl]
    rfl
  unfold readParts
  simp only [Window.startsWith_relocate, Window.drop_relocate]
  by_cases plus : w.startsWith (.punct .plus) = true
  · simp only [plus, if_true]
    exact parts .add (w.drop 1)
  · by_cases minus : w.startsWith (.punct .minus) = true
    · simp only [plus, minus, if_true]
      exact parts .remove (w.drop 1)
    · simp only [plus, minus]
      exact parts .set w

/-- The processor of a request's body. -/
theorem readProcessor_relocate (w : Window) :
    readProcessor (relocate f w) = relocate f (readProcessor w) := by
  refine relocate_bind (Window.singleWord_relocate f w _) fun token _ => ?_
  rw [Token.value_relocate]
  cases BodyProcessor.ofName? token.value with
  | none => rfl
  | some processor => rfl

/-- Ids, a semicolon and a target. -/
theorem readTargetById_relocate (w : Window) :
    readTargetById (relocate f w) = relocate f (readTargetById w) := by
  refine relocate_bind (splitTarget_relocate f w) ?_
  rintro ⟨ids, target⟩ -
  refine relocate_bind (IdRange.read_relocate f ids) fun range _ => ?_
  exact relocate_bind (readTarget_relocate f target) fun _ _ => rfl

/-- A tag, a semicolon and a target. -/
theorem readTargetByTag_relocate (w : Window) :
    readTargetByTag (relocate f w) = relocate f (readTargetByTag w) := by
  refine relocate_bind (splitTarget_relocate f w) ?_
  rintro ⟨tag, target⟩ -
  refine relocate_bind (readTag_relocate f tag) fun name _ => ?_
  exact relocate_bind (readTarget_relocate f target) fun _ _ => rfl

/-- Every reader of a value moves what it reads. -/
theorem readers_relocate {name : String} {read : Window → Except SyntaxError CtlOption}
    (listed : (name, read) ∈ readers) (w : Window) :
    read (relocate f w) = relocate f (read w) := by
  simp only [readers, List.mem_cons, Prod.mk.injEq, List.not_mem_nil, or_false] at listed
  rcases listed with ⟨-, rfl⟩ | ⟨-, rfl⟩ | ⟨-, rfl⟩ | ⟨-, rfl⟩ | ⟨-, rfl⟩ | ⟨-, rfl⟩ |
    ⟨-, rfl⟩ | ⟨-, rfl⟩ | ⟨-, rfl⟩ | ⟨-, rfl⟩
  · exact relocate_map (Setting.readAuditEngine_relocate f w) fun _ => rfl
  · exact readParts_relocate f w
  · exact relocate_map (Setting.readSwitch_relocate f _ w) fun _ => rfl
  · exact relocate_map (Setting.readSwitch_relocate f _ w) fun _ => rfl
  · exact readProcessor_relocate f w
  · exact relocate_map (Setting.readRuleEngine_relocate f w) fun _ => rfl
  · exact relocate_map (IdRange.read_relocate f w) fun _ => rfl
  · exact relocate_map (readTag_relocate f w) fun _ => rfl
  · exact readTargetById_relocate f w
  · exact readTargetByTag_relocate f w

/-- A **control option:** its name, an equals sign and the value that the name asks for. -/
theorem read_relocate (w : Window) :
    CtlOption.read (relocate f w) = relocate f (CtlOption.read w) := by
  refine relocate_bind (Window.expect_relocate f w _ _) ?_
  rintro ⟨name, rest⟩ -
  refine relocate_bind (Window.expect_relocate f rest _ _) ?_
  rintro ⟨equals, value⟩ -
  simp only [relocate_pair, Token.value_relocate]
  cases found : Text.lookup? readers name.value with
  | none => rfl
  | some read =>
    obtain ⟨spelling, listed⟩ := Text.exists_mem_of_lookup? found
    exact readers_relocate f listed value

end CtlOption

/-! ### Collections

The values of variables are strings with references.  They are cut at tokens of certain kinds that
stand outside of references, and a cut is at the same index after the motion. -/

/-- The two names of a variable, cut at the dot between them. -/
theorem Member.read_relocate (action : VariableAction) (w : Window) :
    Member.read action (relocate f w) = relocate f (Member.read action w) := by
  unfold Member.read
  rw [Window.indexOutsideMacros?_relocate, Window.position_relocate]
  cases w.indexOutsideMacros? (.punct .dot) with
  | none => rfl
  | some dot =>
    simp only [Window.splitAt_relocate]
    rcases w.splitAt dot with ⟨collection, rest⟩
    simp only [relocate_pair, Window.isEmpty_relocate, Window.first_relocate,
      Window.drop_relocate, unexpected_relocate]
    refine relocate_ite (fun _ => rfl) (fun _ => ?_)
    refine relocate_ite (fun _ => rfl) (fun _ => ?_)
    refine relocate_bind (ExpandableString.readValue_relocate f collection) fun _ _ => ?_
    exact relocate_bind (ExpandableString.readValue_relocate f _) fun _ _ => rfl

namespace VarChange

/-- An amount to add or to subtract. -/
theorem readAmount_relocate (w : Window) :
    readAmount (relocate f w) = relocate f (readAmount w) := by
  unfold readAmount
  rw [Window.isEmpty_relocate, Window.first_relocate]
  exact relocate_ite (fun _ => rfl) (fun _ => ExpandableString.readValue_relocate f w)

/-- What stands behind an equals sign.  A change holds no places. -/
theorem read_relocate (w : Window) :
    VarChange.read (relocate f w) = relocate f (VarChange.read w) := by
  unfold VarChange.read
  simp only [Window.startsWith_relocate, Window.drop_relocate]
  refine relocate_ite (fun _ => relocate_map (readAmount_relocate f _) fun _ => rfl) (fun _ => ?_)
  refine relocate_ite (fun _ => relocate_map (readAmount_relocate f _) fun _ => rfl) (fun _ => ?_)
  exact relocate_map (ExpandableString.readValue_relocate f w) fun _ => rfl

end VarChange

namespace SetVar

/-- The window before the equals sign, and from it on. -/
theorem splitAssignment_relocate (w : Window) :
    splitAssignment (relocate f w) = relocate f (splitAssignment w) := by
  unfold splitAssignment
  rw [Window.indexOutsideMacros?_relocate]
  cases w.indexOutsideMacros? (.punct .equals) with
  | none => rfl
  | some equals =>
    simp only [Window.splitAt_relocate]
    rfl

/-- The value of **setvar.** -/
theorem read_relocate (w : Window) :
    SetVar.read (relocate f w) = relocate f (SetVar.read w) := by
  have named : (if w.startsWith (.punct .exclamation) then relocate f (w.drop 1)
      else relocate f w) =
      relocate f (if w.startsWith (.punct .exclamation) then w.drop 1 else w) :=
    relocate_ite (fun _ => rfl) (fun _ => rfl)
  unfold SetVar.read
  simp only [Window.startsWith_relocate, Window.drop_relocate, named, splitAssignment_relocate]
  rcases splitAssignment (if w.startsWith (.punct .exclamation) then w.drop 1 else w) with
    ⟨target, assignment⟩
  refine relocate_bind (Member.read_relocate f _ target) fun member _ => ?_
  cases assignment with
  | none => rfl
  | some assignment =>
    refine relocate_ite (fun _ => ?_) (fun _ => ?_)
    · rw [Window.position_relocate]
      rfl
    · refine relocate_bind ?_ fun change _ => rfl
      rw [Window.drop_relocate]
      exact VarChange.read_relocate f _

end SetVar

/-- The value of **expirevar.** -/
theorem ExpireVar.read_relocate (w : Window) :
    ExpireVar.read (relocate f w) = relocate f (ExpireVar.read w) := by
  unfold ExpireVar.read
  rw [Window.indexOutsideMacros?_relocate, Window.position_relocate]
  cases w.indexOutsideMacros? (.punct .equals) with
  | none => rfl
  | some equals =>
    simp only [Window.splitAt_relocate]
    rcases w.splitAt equals with ⟨target, rest⟩
    simp only [relocate_pair, Window.isEmpty_relocate, Window.first_relocate,
      Window.drop_relocate]
    refine relocate_bind (Member.read_relocate f _ target) fun member _ => ?_
    refine relocate_ite (fun _ => rfl) (fun _ => ?_)
    exact relocate_bind (ExpandableString.readValue_relocate f _) fun _ _ => rfl

/-- The value of **initcol.** -/
theorem InitCol.read_relocate (w : Window) :
    InitCol.read (relocate f w) = relocate f (InitCol.read w) := by
  unfold InitCol.read
  rw [Window.index?_relocate, Window.position_relocate]
  cases w.index? (.punct .equals) with
  | none => rfl
  | some equals =>
    simp only [Window.splitAt_relocate]
    rcases w.splitAt equals with ⟨name, rest⟩
    simp only [relocate_pair, Window.isEmpty_relocate, Window.first_relocate,
      Window.drop_relocate]
    refine relocate_bind (Window.singleWord_relocate f name _) fun collection _ => ?_
    refine relocate_ite (fun _ => rfl) (fun _ => ?_)
    exact relocate_bind (ExpandableString.readValue_relocate f _) fun _ _ => rfl

/-! ### Values of actions

A value that has not been read yet is the window behind the colon, if there is a colon, and the name
in front of it, at which a value too many or too few is reported. -/

instance : Relocatable ActionValue :=
  ⟨fun f v => ⟨relocate f v.name, relocate f v.window⟩⟩

namespace ActionValue

@[simp]
theorem name_relocate (v : ActionValue) : (relocate f v).name = relocate f v.name := rfl

/-- A value that must be there. -/
theorem required_relocate (v : ActionValue) :
    (relocate f v).required = relocate f v.required := by
  rcases v with ⟨name, _ | w⟩ <;> rfl

/-- A value that must not be there; the error is at the value. -/
theorem absent_relocate (v : ActionValue) : (relocate f v).absent = relocate f v.absent := by
  rcases v with ⟨name, _ | w⟩
  · rfl
  · show Except.error (SyntaxError.mk (.actionTakesNothing name.value) (relocate f w).position) = _
    rw [Window.position_relocate]
    rfl

/-- A value that may hold references. -/
theorem expandable_relocate (v : ActionValue) :
    (relocate f v).expandable = relocate f v.expandable :=
  relocate_bind (required_relocate f v) fun w _ => ExpandableString.readValue_relocate f w

/-- A value that is a plain text. -/
theorem plain_relocate (v : ActionValue) : (relocate f v).plain = relocate f v.plain := by
  refine relocate_bind (required_relocate f v) fun w _ => ?_
  rw [Window.text_relocate]
  rfl

/-- A numeral between two bounds; the error is at the start of the window, whatever is wrong. -/
theorem readNumeral_relocate (name : String) (least most : Nat) (w : Window) :
    readNumeral name least most (relocate f w) = relocate f (readNumeral name least most w) := by
  unfold readNumeral
  rw [Window.text_relocate, Window.position_relocate]
  cases Text.Decimal.read? w.text.toList with
  | none => rfl
  | some n => exact relocate_ite (fun _ => rfl) (fun _ => rfl)

/-- A value that is a numeral. -/
theorem numeral_relocate (v : ActionValue) (least most : Nat) :
    (relocate f v).numeral least most = relocate f (v.numeral least most) :=
  relocate_bind (required_relocate f v) fun w _ => readNumeral_relocate f _ _ _ w

/-- A phase, by its name or by its number. -/
theorem phase_relocate (v : ActionValue) : (relocate f v).phase = relocate f v.phase := by
  refine relocate_bind (required_relocate f v) fun w _ => ?_
  rw [Window.text_relocate]
  cases Text.lookup? phaseNames w.text with
  | none => exact readNumeral_relocate f _ _ _ w
  | some phase => rfl

/-- A severity, by its name or by its number. -/
theorem severity_relocate (v : ActionValue) :
    (relocate f v).severity = relocate f v.severity := by
  refine relocate_bind (required_relocate f v) fun w _ => ?_
  rw [Window.text_relocate]
  cases Severity.ofName? w.text with
  | some severity => rfl
  | none =>
    refine relocate_bind (readNumeral_relocate f _ _ _ w) fun level _ => ?_
    have fixed : relocate f level = level := rfl
    rw [fixed]
    cases Severity.ofLevel? level with
    | none => rfl
    | some severity => rfl

/-- The name of a transformation. -/
theorem transform_relocate (v : ActionValue) :
    (relocate f v).transform = relocate f v.transform := by
  refine relocate_bind (required_relocate f v) fun w _ => ?_
  refine relocate_bind (Window.singleWord_relocate f w _) fun token _ => ?_
  rw [Token.value_relocate]
  cases Transform.ofName? token.value with
  | none => rfl
  | some transform => rfl

end ActionValue

/-! ### Actions

The name of an action is looked up by its letters and decides how its value is delimited.  So both
sides look up the same keyword, cut the value at the same index and call the same reader. -/

namespace Action

/-- The **action of a keyword with its value,** one case for each shape of value. -/
theorem ofValue_relocate (keyword : Keyword) (v : ActionValue) :
    ofValue keyword (relocate f v) = relocate f (ofValue keyword v) := by
  cases keyword with
  | flag which => exact relocate_map (v.absent_relocate f) fun _ => rfl
  | text which => exact relocate_map (v.expandable_relocate f) fun _ => rfl
  | number which => exact relocate_map (v.numeral_relocate f _ _) fun _ => rfl
  | label which => exact relocate_map (v.plain_relocate f) fun _ => rfl
  | phase => exact relocate_map (v.phase_relocate f) fun _ => rfl
  | severity => exact relocate_map (v.severity_relocate f) fun _ => rfl
  | transform => exact relocate_map (v.transform_relocate f) fun _ => rfl
  | setVar =>
    refine relocate_bind (v.required_relocate f) fun w _ => ?_
    exact relocate_bind (SetVar.read_relocate f w) fun _ _ => rfl
  | expireVar =>
    refine relocate_bind (v.required_relocate f) fun w _ => ?_
    exact relocate_bind (ExpireVar.read_relocate f w) fun _ _ => rfl
  | initCol =>
    refine relocate_bind (v.required_relocate f) fun w _ => ?_
    exact relocate_bind (InitCol.read_relocate f w) fun _ _ => rfl
  | ctl =>
    refine relocate_bind (v.required_relocate f) fun w _ => ?_
    exact relocate_bind (CtlOption.read_relocate f w) fun _ _ => rfl

/-- A value in single quotes and the window behind it.  It is cut at the next quote, by kind. -/
theorem quotedValue_relocate (opening : Position) (body : Window) :
    quotedValue (f opening) (relocate f body) = relocate f (quotedValue opening body) := by
  unfold quotedValue
  rw [Window.index?_relocate]
  cases body.index? (.punct .singleQuote) with
  | none => rfl
  | some close =>
    simp only [Window.splitAt_relocate]
    rcases body.splitAt close with ⟨value, rest⟩
    simp only [relocate_pair, Window.drop_relocate, relocate_ok]

/-- A value without quotes, up to a comma or, for a single word, up to blanks. -/
theorem bareValue_relocate (singleWord : Bool) (w : Window) :
    bareValue singleWord (relocate f w) = relocate f (bareValue singleWord w) := by
  unfold bareValue
  dsimp only
  rw [Window.tokens_relocate, Window.map_relocate_takeWhile f fun _ => rfl, List.length_map]
  rw [Window.splitAt_relocate]
  exact congrArg (·, _) (Window.trimEnd_relocate f _)

/-- The value behind the name of an action, if there is a colon, and the window behind both. -/
theorem splitValue_relocate (singleWord : Bool) (w : Window) :
    splitValue singleWord (relocate f w) = relocate f (splitValue singleWord w) := by
  unfold splitValue
  simp only [Window.startsWith_relocate, Window.drop_relocate, Window.skipBlanks_relocate,
    Window.position_relocate, bareValue_relocate]
  refine relocate_ite (fun _ => ?_) (fun _ => rfl)
  refine relocate_ite (fun _ => ?_) (fun _ => rfl)
  exact relocate_bind (quotedValue_relocate f _ _) fun _ _ => rfl

/-- **One action** and the window behind it.  The action is at the place of its name. -/
theorem read_relocate (w : Window) :
    Action.read (relocate f w) = relocate f (Action.read w) := by
  refine relocate_bind (Window.expect_relocate f w _ _) ?_
  rintro ⟨name, rest⟩ -
  refine relocate_bind (splitValue_relocate f _ rest) ?_
  rintro ⟨value, rest⟩ -
  simp only [relocate_pair, Token.value_relocate]
  cases Keyword.ofName? name.value with
  | none => rfl
  | some keyword => exact relocate_bind (ofValue_relocate f keyword ⟨name, value⟩) fun _ _ => rfl

/-- Commas and blanks between actions. -/
theorem skipSeparators_relocate (w : Window) :
    skipSeparators (relocate f w) = relocate f (skipSeparators w) :=
  w.dropKinds_relocate f _

/-- The recursion of `readOnto`, without its termination argument. -/
theorem readOnto_eq (before : Array (Positioned Action)) (w : Window) :
    readOnto before w =
      if w.isEmpty then .ok before.toList
      else
        Action.read w >>= fun (action, rest) =>
          if rest.isEmpty ∨ rest.startsWith (.punct .comma) ∨ rest.startsWith .blanks then
            readOnto (before.push action) (skipSeparators rest)
          else .error (unexpected .actionSeparator rest.first) := by
  rw [readOnto]
  split
  · rfl
  · cases Action.read w <;> rfl

/-- The actions behind those read so far. -/
theorem readOnto_relocate (before : Array (Positioned Action)) (w : Window) :
    readOnto (relocate f before) (relocate f w) = relocate f (readOnto before w) := by
  -- every action makes the window shorter, and a move keeps its length
  induction size : w.tokens.length using Nat.strongRecOn generalizing before w with
  | ind n ih =>
    subst size
    rw [readOnto_eq, readOnto_eq before w, Window.isEmpty_relocate]
    refine relocate_ite (fun _ => congrArg Except.ok (relocate_toList _).symm) (fun _ => ?_)
    refine relocate_bind (read_relocate f w) ?_
    rintro ⟨action, rest⟩ read
    simp only [relocate_pair, Window.startsWith_relocate, Window.isEmpty_relocate,
      Window.first_relocate, skipSeparators_relocate, ← relocate_push]
    refine relocate_ite (fun _ => ih _ ?_ _ _ rfl) (fun _ => rfl)
    calc (skipSeparators rest).tokens.length
      _ ≤ rest.tokens.length := (skipSeparators_suffix rest).length_le
      _ < w.tokens.length := read_length read

/-- A **list of actions.** -/
theorem readList_relocate (w : Window) : readList (relocate f w) = relocate f (readList w) := by
  unfold readList
  rw [skipSeparators_relocate, ← readOnto_relocate, relocate_empty]

end Action

end WafRules
