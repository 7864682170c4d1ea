import WafRules.Action.Reader
import WafRules.Proofs.Faults.Operands

/-!
# Faults of settings, control options and actions

The readers of settings, of control options and of actions report faults of the windows they are
given.  The value of an action is cut out of the window of the action, and its shape is chosen by
the name in front of it, so a complaint that begins with that name begins with a keyword.

A message about a value names the action as it was written.  So a value is looked at together with
its name (`ActionValue.Among`), and that the name is a keyword in some case is part of what is known
of it; it is known before the value is read, because an action of another name is refused first.

## Main Definitions

* `ActionValue.Among` — values made of given tokens, behind the keyword of an action.

## Main Statements

* `Setting.readKeyword_reports`, `Setting.readAuditLogParts_reports`.
* `CtlOption.read_reports`.
* `ActionValue.severity_reports` — the level of a severity is never unknown.
* `Action.readList_reports`.
-/

namespace WafRules

variable {tokens : List Token} {w : Window}

/-! ### Settings

A setting is one word of its window.  A window without a word or with more than one is at fault at
the token found instead, and a word that is not in the table is at fault itself. -/

namespace Setting

/-- A **word of a setting**, or a fault for what stands there instead. -/
theorem readWord_answers (among : w.Among tokens) (what : Expected) (arises : what.Arises) :
    Answers tokens (fun t => t ∈ tokens) (readWord what w) :=
  among.skipBlanks.trimEnd.singleWord what arises

/-- A setting that is **one of a few words**, for any table of them. -/
theorem readKeyword_reports {α : Type} (among : w.Among tokens) (what : Expected)
    (arises : what.Arises) (ofName? : String → Option α) :
    Reports tokens (readKeyword what ofName? w) := by
  refine (readWord_answers among what arises).bind fun token member => ?_
  cases ofName? token.value with
  | none => exact .error ⟨List.mem_map_of_mem member, arises⟩
  | some value => exact .ok trivial

/-- A setting that is **on or off**, for the names of all settings and options of that kind. -/
theorem readSwitch_reports (among : w.Among tokens) {name : String} (listed : name ∈ switchNames) :
    Reports tokens (readSwitch name w) :=
  readKeyword_reports among (.switchValue name) listed switch?

/-- A letter that selects **no audit log part** is reported at its word. -/
theorem readAuditLogParts_reports (among : w.Among tokens) :
    Reports tokens (readAuditLogParts w) := by
  refine (readWord_answers among .auditLogParts trivial).bind fun token member => ?_
  refine (Answers.mapM (P := fun _ => True) (fun c => ?_) _).mono fun _ _ => trivial
  cases AuditLogPart.ofLetter? c with
  | none => exact .error ⟨List.mem_map_of_mem member, trivial⟩
  | some part => exact .ok trivial

end Setting

/-! ### Control options

The parts of an option are windows cut from its own, and each reader is given one of them.  A part
that is missing is missed at the token that stands where it should, or at the closing one. -/

/-- A **range of ids** that is none is reported where its window starts. -/
theorem IdRange.read_reports (among : w.Among tokens) :
    Reports tokens (IdRange.read w) := by
  unfold IdRange.read
  cases read? w.text.toList with
  | none => exact .error ⟨among.position, trivial⟩
  | some range => exact .ok trivial

namespace CtlOption

/-- A **tag** that is missing. -/
theorem readTag_reports (among : w.Among tokens) :
    Reports tokens (readTag w) :=
  .ite (fun _ => .error (among.unexpected trivial)) fun _ => .ok trivial

/-- The two parts around a **semicolon**, or that there is none. -/
theorem splitTarget_answers (among : w.Among tokens) :
    Answers tokens (fun result => result.1.Among tokens ∧ result.2.Among tokens)
      (splitTarget w) := by
  unfold splitTarget
  cases w.index? (.punct .semicolon) with
  | none => exact .error ⟨among.position, trivial⟩
  | some semicolon => exact .ok ⟨among.front semicolon, (among.back semicolon).drop 1⟩

/-- The **target** of an option, with nothing behind it. -/
theorem readTarget_reports (among : w.Among tokens) :
    Reports tokens (readTarget w) := by
  refine (Selector.read_answers among).bind ?_
  rintro ⟨target, rest⟩ amongRest
  exact (amongRest.finish .ctlTarget trivial).bind fun _ _ => .ok trivial

/-- The **parts** that an option names. -/
theorem readParts_reports (among : w.Among tokens) :
    Reports tokens (readParts w) := by
  have letters (change : PartsChange) {rest : Window} (amongRest : rest.Among tokens) :
      Reports tokens (do return auditLogParts change (← Setting.readAuditLogParts rest)) :=
    (Setting.readAuditLogParts_reports amongRest).bind fun _ _ => .ok trivial
  unfold readParts
  by_cases plus : w.startsWith (.punct .plus) = true
  · simp only [plus, if_true]
    exact letters .add (among.drop 1)
  · by_cases minus : w.startsWith (.punct .minus) = true
    · simp only [plus, minus, if_true]
      exact letters .remove (among.drop 1)
    · simp only [plus, minus]
      exact letters .set among

/-- A **body processor** of another name. -/
theorem readProcessor_reports (among : w.Among tokens) :
    Reports tokens (readProcessor w) := by
  refine (among.singleWord .bodyProcessor trivial).bind fun token member => ?_
  cases BodyProcessor.ofName? token.value with
  | none => exact .error ⟨List.mem_map_of_mem member, trivial⟩
  | some processor => exact .ok trivial

/-- Ids and a target, each with faults of its own part. -/
theorem readTargetById_reports (among : w.Among tokens) :
    Reports tokens (readTargetById w) := by
  refine (splitTarget_answers among).bind ?_
  rintro ⟨ids, target⟩ ⟨amongIds, amongTarget⟩
  refine (IdRange.read_reports amongIds).bind fun _ _ => ?_
  exact (readTarget_reports amongTarget).bind fun _ _ => .ok trivial

/-- A tag and a target, each with faults of its own part. -/
theorem readTargetByTag_reports (among : w.Among tokens) :
    Reports tokens (readTargetByTag w) := by
  refine (splitTarget_answers among).bind ?_
  rintro ⟨tag, target⟩ ⟨amongTag, amongTarget⟩
  refine (readTag_reports amongTag).bind fun _ _ => ?_
  exact (readTarget_reports amongTarget).bind fun _ _ => .ok trivial

/-- Every reader of a value reports faults of its window. -/
theorem readers_reports {name : String} {read : Window → Except SyntaxError CtlOption}
    (listed : (name, read) ∈ readers) (among : w.Among tokens) :
    Reports tokens (read w) := by
  simp only [readers, List.mem_cons, Prod.mk.injEq, List.not_mem_nil, or_false] at listed
  rcases listed with ⟨-, rfl⟩ | ⟨-, rfl⟩ | ⟨-, rfl⟩ | ⟨-, rfl⟩ | ⟨-, rfl⟩ | ⟨-, rfl⟩ |
    ⟨-, rfl⟩ | ⟨-, rfl⟩ | ⟨-, rfl⟩ | ⟨-, rfl⟩
  · exact (Setting.readKeyword_reports among .auditEngineMode trivial _).map
  · exact readParts_reports among
  · exact (Setting.readSwitch_reports among (by simp [switchNames])).map
  · exact (Setting.readSwitch_reports among (by simp [switchNames])).map
  · exact readProcessor_reports among
  · exact (Setting.readKeyword_reports among .ruleEngineMode trivial _).map
  · exact (IdRange.read_reports among).map
  · exact (readTag_reports among).map
  · exact readTargetById_reports among
  · exact readTargetByTag_reports among

/-- The faults of a **control option**. -/
theorem read_reports (among : w.Among tokens) :
    Reports tokens (CtlOption.read w) := by
  refine (among.expect .word .ctlOption trivial).bind ?_
  rintro ⟨name, rest⟩ ⟨named, amongRest⟩
  refine (amongRest.expect (.punct .equals) .ctlValue trivial).bind ?_
  rintro ⟨equals, value⟩ ⟨-, amongValue⟩
  cases found : Text.lookup? readers name.value with
  | none => exact .error ⟨List.mem_map_of_mem named, trivial⟩
  | some read =>
    obtain ⟨spelling, listed⟩ := Text.exists_mem_of_lookup? found
    exact readers_reports listed amongValue

end CtlOption

/-! ### Collections

A member of a collection has a dot, and an assignment may have an equals sign.  Both are searched
outside of references, so the windows that are cut there are stretches of the same tokens. -/

/-- The **member of a collection**: that it has no dot is reported where it starts. -/
theorem Member.read_reports (action : VariableAction) (among : w.Among tokens) :
    Reports tokens (Member.read action w) := by
  unfold Member.read
  cases w.indexOutsideMacros? (.punct .dot) with
  | none => exact .error ⟨among.position, trivial⟩
  | some dot =>
    have amongName := (among.back dot).drop 1
    refine .ite (fun _ => .error ((among.front dot).unexpected trivial)) fun _ => ?_
    refine .ite (fun _ => .error (amongName.unexpected trivial)) fun _ => ?_
    refine (ExpandableString.readValue_reports (among.front dot)).bind fun _ _ => ?_
    exact (ExpandableString.readValue_reports amongName).bind fun _ _ => .ok trivial

namespace VarChange

/-- An **amount** that is missing. -/
theorem readAmount_reports (among : w.Among tokens) :
    Reports tokens (readAmount w) :=
  .ite (fun _ => .error (among.unexpected trivial)) fun _ =>
    ExpandableString.readValue_reports among

/-- How a variable **changes**. -/
theorem read_reports (among : w.Among tokens) :
    Reports tokens (VarChange.read w) := by
  have amount := readAmount_reports (among.drop 1)
  refine .ite (fun _ => amount.map) fun _ => ?_
  refine .ite (fun _ => amount.map) fun _ => ?_
  exact (ExpandableString.readValue_reports among).map

end VarChange

namespace SetVar

/-- Both **parts of an assignment**, if there are two. -/
theorem splitAssignment_among (among : w.Among tokens) :
    (splitAssignment w).1.Among tokens ∧
      ∀ assignment, (splitAssignment w).2 = some assignment → assignment.Among tokens := by
  unfold splitAssignment
  cases w.indexOutsideMacros? (.punct .equals) with
  | none => exact ⟨among, nofun⟩
  | some equals =>
    refine ⟨among.front equals, fun assignment same => ?_⟩
    cases same
    exact among.back equals

/-- A **`setvar`** value; a marked variable with an assignment is a fault of the assignment. -/
theorem read_reports (among : w.Among tokens) :
    Reports tokens (SetVar.read w) := by
  have amongRest := among.ite_drop (w.startsWith (.punct .exclamation)) 1
  obtain ⟨amongTarget, amongAssignment⟩ := splitAssignment_among amongRest
  unfold SetVar.read
  refine (Member.read_reports .setVar amongTarget).bind fun _ _ => ?_
  split
  · exact .ok trivial
  · next assignment found =>
    have amongValue := amongAssignment assignment found
    refine .ite (fun _ => .error ⟨amongValue.position, trivial⟩) fun _ => ?_
    exact (VarChange.read_reports (amongValue.drop 1)).bind fun _ _ => .ok trivial

end SetVar

/-- An **`expirevar`** value. -/
theorem ExpireVar.read_reports (among : w.Among tokens) :
    Reports tokens (ExpireVar.read w) := by
  unfold ExpireVar.read
  cases w.indexOutsideMacros? (.punct .equals) with
  | none => exact .error ⟨among.position, trivial⟩
  | some equals =>
    have amongSeconds := (among.back equals).drop 1
    refine (Member.read_reports .expireVar (among.front equals)).bind fun _ _ => ?_
    refine .ite (fun _ => .error (amongSeconds.unexpected trivial)) fun _ => ?_
    exact (ExpandableString.readValue_reports amongSeconds).bind fun _ _ => .ok trivial

/-- An **`initcol`** value. -/
theorem InitCol.read_reports (among : w.Among tokens) :
    Reports tokens (InitCol.read w) := by
  unfold InitCol.read
  cases w.index? (.punct .equals) with
  | none => exact .error ⟨among.position, trivial⟩
  | some equals =>
    have amongKey := (among.back equals).drop 1
    refine ((among.front equals).singleWord .collectionName trivial).bind fun _ _ => ?_
    refine .ite (fun _ => .error (amongKey.unexpected trivial)) fun _ => ?_
    exact (ExpandableString.readValue_reports amongKey).bind fun _ _ => .ok trivial

/-! ### Values of actions

A value that is missing is missed at the name, which is a token of the list too, and one that should
not be there is reported where it starts. -/

/-- There is a severity for every level up to the greatest. -/
theorem Severity.ofLevel?_isSome {level : Nat} (bound : level ≤ 7) :
    (ofLevel? level).isSome = true := by
  have inList : level < all.length := Nat.lt_succ_of_le bound
  simp [ofLevel?, inList]

namespace ActionValue

/-- Whether the value of an action and the name in front of it are among tokens, and the name is
the keyword of an action. -/
structure Among (tokens : List Token) (v : ActionValue) : Prop where
  name : v.name ∈ tokens
  keyword : ∃ keyword : Action.Keyword, Text.sameKeyword keyword.spelling v.name.value = true
  window : ∀ w, v.window = some w → w.Among tokens

variable {v : ActionValue}

/-- A value that **has to be there** is missed at the name. -/
theorem required_answers (among : v.Among tokens) :
    Answers tokens (Window.Among tokens) v.required := by
  unfold required
  cases found : v.window with
  | none => exact .error ⟨List.mem_map_of_mem among.name, among.keyword⟩
  | some w => exact .ok (among.window w found)

/-- A value that **must not be there** is reported where it starts. -/
theorem absent_reports (among : v.Among tokens) : Reports tokens v.absent := by
  unfold absent
  cases found : v.window with
  | none => exact .ok trivial
  | some w => exact .error ⟨(among.window w found).position, among.keyword⟩

/-- A value that is a **text with references**. -/
theorem expandable_reports (among : v.Among tokens) :
    Reports tokens v.expandable :=
  (required_answers among).bind fun _ amongWindow =>
    ExpandableString.readValue_reports amongWindow

/-- A value that is a **plain text**. -/
theorem plain_reports (among : v.Among tokens) : Reports tokens v.plain :=
  (required_answers among).bind fun _ _ => .ok trivial

/-- A **number** is in its bounds, or else its window is at fault. -/
theorem readNumeral_answers (among : v.Among tokens) (amongWindow : w.Among tokens)
    (least most : Nat) :
    Answers tokens (fun n => least ≤ n ∧ n ≤ most) (readNumeral v.name.value least most w) := by
  unfold readNumeral
  cases Text.Decimal.read? w.text.toList with
  | none => exact .error ⟨amongWindow.position, among.keyword⟩
  | some n =>
    refine .ite (fun bounds => .ok bounds) fun _ => ?_
    exact .error ⟨amongWindow.position, among.keyword⟩

/-- The **number** of an action. -/
theorem numeral_reports (among : v.Among tokens) (least most : Nat) :
    Reports tokens (v.numeral least most) :=
  (required_answers among).bind fun _ amongWindow =>
    (readNumeral_answers among amongWindow least most).mono fun _ _ => trivial

/-- A **phase**, by name or by number. -/
theorem phase_reports (among : v.Among tokens) : Reports tokens v.phase := by
  refine (required_answers among).bind fun w amongWindow => ?_
  cases Text.lookup? phaseNames w.text with
  | none => exact (readNumeral_answers among amongWindow 1 5).mono fun _ _ => trivial
  | some phase => exact .ok trivial

/-- The level of a **severity** is never unknown, as it has been found to be in its bounds. -/
theorem severity_reports (among : v.Among tokens) :
    Reports tokens v.severity := by
  refine (required_answers among).bind fun w amongWindow => ?_
  cases Severity.ofName? w.text with
  | some severity => exact .ok trivial
  | none =>
    refine (readNumeral_answers among amongWindow 0 7).bind ?_
    rintro level ⟨-, bound⟩
    -- the table has an entry for every level in the bounds
    obtain ⟨severity, found⟩ := Option.isSome_iff_exists.mp (Severity.ofLevel?_isSome bound)
    simp only [found]
    exact .ok trivial

/-- The name of a **transformation**. -/
theorem transform_reports (among : v.Among tokens) :
    Reports tokens v.transform := by
  refine (required_answers among).bind fun w amongWindow => ?_
  refine (amongWindow.singleWord .transformName trivial).bind fun token member => ?_
  cases Transform.ofName? token.value with
  | none => exact .error ⟨List.mem_map_of_mem member, trivial⟩
  | some transform => exact .ok trivial

end ActionValue

/-! ### Actions

A list is read action by action.  The window of the next action is made of tokens of the list again,
so a fault in any of them is a fault of the list. -/

namespace Action

/-- Whatever a keyword asks for, the faults of the **value** are in its window or at its name. -/
theorem ofValue_reports (keyword : Keyword) {v : ActionValue} (among : v.Among tokens) :
    Reports tokens (ofValue keyword v) := by
  have required := ActionValue.required_answers among
  cases keyword with
  | flag which => exact (ActionValue.absent_reports among).map
  | text which => exact (ActionValue.expandable_reports among).map
  | number which => exact (ActionValue.numeral_reports among _ _).map
  | label which => exact (ActionValue.plain_reports among).map
  | phase => exact (ActionValue.phase_reports among).map
  | severity => exact (ActionValue.severity_reports among).map
  | transform => exact (ActionValue.transform_reports among).map
  | setVar =>
    refine required.bind fun w amongWindow => ?_
    exact (SetVar.read_reports amongWindow).bind fun _ _ => .ok trivial
  | expireVar =>
    refine required.bind fun w amongWindow => ?_
    exact (ExpireVar.read_reports amongWindow).bind fun _ _ => .ok trivial
  | initCol =>
    refine required.bind fun w amongWindow => ?_
    exact (InitCol.read_reports amongWindow).bind fun _ _ => .ok trivial
  | ctl =>
    refine required.bind fun w amongWindow => ?_
    exact (CtlOption.read_reports amongWindow).bind fun _ _ => .ok trivial

/-- The value of an action is cut out of the window of the action. -/
theorem splitValue_answers (singleWord : Bool) (among : w.Among tokens) :
    Answers tokens (fun result => (∀ value, result.1 = some value → value.Among tokens) ∧
      result.2.Among tokens) (splitValue singleWord w) := by
  have start : (w.drop 1).skipBlanks.Among tokens := (among.drop 1).skipBlanks
  refine .ite (fun _ => .ite (fun _ => ?_) fun _ => ?_) fun _ => .ok ⟨nofun, among⟩
  · -- between the quotes
    have amongBody := start.drop 1
    unfold quotedValue
    cases ((w.drop 1).skipBlanks.drop 1).index? (.punct .singleQuote) with
    | none => exact .error ⟨start.position, trivial⟩
    | some close =>
      refine .ok ⟨fun value same => ?_, (amongBody.back close).drop 1⟩
      cases same
      exact amongBody.front close
  · refine .ok ⟨fun value same => ?_, start.back _⟩
    cases same
    exact (start.front _).trimEnd

/-- An **action** with its value.  The keyword is looked up before the value is read, and this is
where the name is found to be one. -/
theorem read_answers (among : w.Among tokens) :
    Answers tokens (fun result => result.2.Among tokens) (Action.read w) := by
  refine (among.expect .word .actionName trivial).bind ?_
  rintro ⟨name, rest⟩ ⟨named, amongRest⟩
  refine (splitValue_answers _ amongRest).bind ?_
  rintro ⟨value, after⟩ ⟨amongValue, amongAfter⟩
  cases found : Keyword.ofName? name.value with
  | none => exact .error ⟨List.mem_map_of_mem named, trivial⟩
  | some keyword =>
    have spelled : ∃ keyword : Keyword, Text.sameKeyword keyword.spelling name.value = true :=
      ⟨keyword, Text.sameKeyword_of_keyword? found⟩
    refine (ofValue_reports keyword (v := ⟨name, value⟩) ⟨named, spelled, amongValue⟩).bind ?_
    exact fun _ _ => .ok amongAfter

/-- What is left behind **separators**. -/
theorem skipSeparators_among (among : w.Among tokens) : (skipSeparators w).Among tokens :=
  among.dropKinds _

/-- The actions **behind those that are there**. -/
theorem readOnto_reports (before : Array (Positioned Action)) (among : w.Among tokens) :
    Reports tokens (readOnto before w) := by
  -- an action leaves a window of the same tokens: the next is read from it, or it is at fault
  fun_induction readOnto before w with
  | case1 before w ended => exact .ok trivial
  | case2 before w goesOn e read => exact .error ((read_answers among).reports _ read)
  | case3 before w goesOn action rest read separated ih =>
    exact ih (skipSeparators_among ((read_answers among).gives _ read))
  | case4 before w goesOn action rest read joined =>
    have amongRest := (read_answers among).gives _ read
    exact .error (amongRest.unexpected trivial)

/-- The **actions of a rule.** -/
theorem readList_reports (among : w.Among tokens) :
    Reports tokens (readList w) :=
  readOnto_reports #[] (skipSeparators_among among)

end Action

end WafRules
