import WafRules.Proofs.Faults

/-!
# Wording of faults

Three messages belong to checks that are there for completeness alone.  The messages of all causes
that arise begin otherwise: each differs from the three at a place that both have.  For most causes
the words in front decide.  A message may also begin with a name; then the name is one of the
language, in any case, and no such name begins like the words in front of the three.

To compare two messages it is enough to find a place where they differ, whatever stands behind it
(`Text.differ`).  That can be computed, also for messages that begin with fixed words and go on with
names or lexemes that are not known.

## Main Definitions

* `Text.differ` — texts with different characters at some place.
* `BeginsOtherwise` — texts that begin like no message of an idle check.

## Main Statements

* `SyntaxCause.message_begins`, `LexCause.message_begins` — the messages that arise begin otherwise.
-/

namespace WafRules

namespace Text

/-- Whether two texts have different characters at some place that both have. -/
def differ : List Char → List Char → Bool
  | c :: cs, d :: ds => c != d || differ cs ds
  | _, _ => false

variable {cs ds : List Char}

/-- Texts differ whatever stands behind one of them. -/
theorem differ_append (apart : differ cs ds = true) (more : List Char) :
    differ cs (ds ++ more) = true := by
  fun_induction differ cs ds with
  | case1 c cs d ds ih =>
    rw [List.cons_append, differ, Bool.or_eq_true]
    exact (Bool.or_eq_true _ _ ▸ apart).imp id ih
  | case2 => cases apart

/-- Texts that are written out differ as their characters do. -/
theorem differ_ofList (apart : differ cs ds = true) :
    differ (String.ofList cs).toList (String.ofList ds).toList = true := by
  rwa [String.toList_ofList, String.toList_ofList]

theorem differ_toList_append {front : String} (apart : differ cs front.toList = true)
    (more : String) : differ cs (front ++ more).toList = true := by
  rw [String.toList_append]
  exact differ_append apart _

/-- Words in front of both texts do not matter. -/
theorem differ_append_left (front cs ds : List Char) :
    differ (front ++ cs) (front ++ ds) = differ cs ds := by
  induction front with
  | nil => rfl
  | cons c front ih => simp [differ, ih]

/-- Texts differ when they do so up to the case of letters. -/
theorem differ_of_map (f : Char → Char) (apart : differ (cs.map f) (ds.map f) = true) :
    differ cs ds = true := by
  fun_induction differ cs ds with
  | case1 c cs d ds ih =>
    rw [List.map_cons, List.map_cons, differ, Bool.or_eq_true] at apart
    rw [Bool.or_eq_true]
    refine apart.imp (fun unequal => ?_) ih
    rw [bne_iff_ne] at unequal ⊢
    exact fun same => unequal (congrArg f same)
  | case2 cs ds notBoth =>
    -- a text that has ended differs from no other
    cases cs with
    | nil => cases apart
    | cons c cs =>
      cases ds with
      | nil => cases apart
      | cons d ds => exact (notBoth c cs d ds rfl rfl).elim

/-- A text differs from another when its spelling in some case does so up to the case of letters. -/
theorem differ_of_foldCase {text : String} (same : foldCase (String.ofList ds) = foldCase text)
    (apart : differ (cs.map Char.toLower) (ds.map Char.toLower) = true) :
    differ (String.ofList cs).toList text.toList = true := by
  rw [foldCase, foldCase, String.toList_ofList] at same
  rw [String.toList_ofList]
  exact differ_of_map Char.toLower (same ▸ apart)

/-- Neither of two texts that differ begins the other. -/
theorem not_prefix_of_differ (apart : differ cs ds = true) : ¬ cs <+: ds := by
  rintro ⟨more, rfl⟩
  have same := differ_append_left cs [] more
  rw [List.append_nil, apart] at same
  cases same

end Text

/-- Whether a text begins otherwise than the three messages that belong to checks for completeness
alone, whatever stands behind it. -/
structure BeginsOtherwise (text : String) : Prop where
  item : Text.differ "expected comment or directive".toList text.toList = true
  argumentEnd : Text.differ "expected end of argument".toList text.toList = true
  severity : Text.differ "invalid severity".toList text.toList = true

namespace BeginsOtherwise

theorem append {text : String} (begins : BeginsOtherwise text) (more : String) :
    BeginsOtherwise (text ++ more) where
  item := Text.differ_toList_append begins.item more
  argumentEnd := Text.differ_toList_append begins.argumentEnd more
  severity := Text.differ_toList_append begins.severity more

theorem not_opening {text : String} (begins : BeginsOtherwise text) :
    ∀ opening ∈ ["expected comment or directive", "expected end of argument", "invalid severity"],
      ¬ opening.toList <+: text.toList := by
  intro opening listed
  simp only [List.mem_cons, List.not_mem_nil, or_false] at listed
  rcases listed with rfl | rfl | rfl
  · exact Text.not_prefix_of_differ begins.item
  · exact Text.not_prefix_of_differ begins.argumentEnd
  · exact Text.not_prefix_of_differ begins.severity

/-- A complaint about what is missing is told from the others by the words for it. -/
theorem expected {words : String}
    (notItem : Text.differ "comment or directive".toList words.toList = true)
    (notEnd : Text.differ "end of argument".toList words.toList = true) :
    BeginsOtherwise ("expected " ++ words) := by
  constructor <;> rw [String.toList_append]
  case item => exact (Text.differ_append_left "expected ".toList _ _).trans notItem
  case argumentEnd => exact (Text.differ_append_left "expected ".toList _ _).trans notEnd
  case severity => exact Text.differ_append (Text.differ_ofList (by decide)) _

/-- A complaint about a value is told from the others by the words for the value. -/
theorem invalid {words : String} (other : Text.differ "severity".toList words.toList = true) :
    BeginsOtherwise ("invalid " ++ words) := by
  constructor <;> rw [String.toList_append]
  case severity => exact (Text.differ_append_left "invalid ".toList _ _).trans other
  all_goals exact Text.differ_append (Text.differ_ofList (by decide)) _

/-- The keyword of an action, in any case, begins no idle message. -/
theorem of_actionName {keyword : Action.Keyword} {name : String}
    (same : Text.sameKeyword keyword.spelling name = true) : BeginsOtherwise name := by
  rw [Text.sameKeyword_iff] at same
  cases keyword with
  | flag which => cases which <;> constructor <;> exact Text.differ_of_foldCase same (by decide)
  | text which => cases which <;> constructor <;> exact Text.differ_of_foldCase same (by decide)
  | number which => cases which <;> constructor <;> exact Text.differ_of_foldCase same (by decide)
  | label which => cases which <;> constructor <;> exact Text.differ_of_foldCase same (by decide)
  | phase | severity | transform | setVar | expireVar | initCol | ctl =>
    constructor <;> exact Text.differ_of_foldCase same (by decide)

end BeginsOtherwise

/-! ### Messages

One case for each cause.  Messages that begin with fixed words are settled by computing, and those
that begin with a name by going through all names of that kind. -/

/-- Whether words are other than those in idle messages, and than those behind the words that idle
messages share with others. -/
structure OtherWords (words : String) : Prop where
  item : Text.differ "comment or directive".toList words.toList = true
  argumentEnd : Text.differ "end of argument".toList words.toList = true
  argument : Text.differ "argument".toList words.toList = true
  severity : Text.differ "severity".toList words.toList = true

theorem OtherWords.append {words : String} (other : OtherWords words) (more : String) :
    OtherWords (words ++ more) where
  item := Text.differ_toList_append other.item more
  argumentEnd := Text.differ_toList_append other.argumentEnd more
  argument := Text.differ_toList_append other.argument more
  severity := Text.differ_toList_append other.severity more

/-- The **words for what is missing** are not those of an idle message.  By induction on what is
missing: what ends too late is not an argument. -/
theorem Expected.describe_otherWords {what : Expected} (arises : what.Arises) :
    OtherWords what.describe := by
  induction what with
  | item | argumentEnd => exact arises.elim
  | blanksAfter operator =>
    have front : OtherWords "whitespace after @" := by
      constructor <;> exact Text.differ_ofList (by decide)
    exact front.append operator
  | switchValue name =>
    have listed : name ∈ switchNames := arises
    have other : OtherWords name := by
      simp only [switchNames, List.mem_cons, List.not_mem_nil, or_false] at listed
      rcases listed with rfl | rfl | rfl | rfl <;> constructor <;>
        exact Text.differ_ofList (by decide)
    exact other.append " value"
  | endOf what ih =>
    constructor
    case argumentEnd =>
      -- only here are words in front shared, and those behind them decide
      show Text.differ _ ("end of " ++ what.describe).toList = true
      rw [String.toList_append]
      exact (Text.differ_append_left "end of ".toList _ _).trans (ih arises).argument
    all_goals exact Text.differ_toList_append (Text.differ_ofList (by decide)) what.describe
  | _ => constructor <;> exact Text.differ_ofList (by decide)

/-- The **messages of the causes that arise** begin otherwise than the idle ones. -/
theorem SyntaxCause.message_begins {cause : SyntaxCause} (arises : cause.Arises) :
    BeginsOtherwise cause.message := by
  -- What is put into a message from the text stands behind its beginning, except for the names
  -- of directives, variables and actions, which are known ones.
  cases cause with
  | expected what found =>
    have words := Expected.describe_otherWords arises
    exact .append (.append (.expected words.item words.argumentEnd) _) _
  | invalidValue what found =>
    exact .append (.append (.invalid (Expected.describe_otherWords arises).severity) _) _
  | argumentCount name least most found =>
    obtain ⟨keyword, rfl⟩ := arises
    have spelling : BeginsOtherwise keyword.spelling := by
      cases keyword <;> constructor <;> exact Text.differ_ofList (by decide)
    exact .append (.append (.append (.append spelling _) _) _) _
  | notACollection name =>
    obtain ⟨subject, rfl⟩ := arises
    have spelling : BeginsOtherwise subject.name := by
      cases subject <;> constructor <;> exact Text.differ_ofList (by decide)
    exact .append spelling _
  | actionTakesNothing name | actionNeedsValue name =>
    obtain ⟨keyword, same⟩ := arises
    exact .append (.of_actionName same) _
  | notANumeral name found =>
    obtain ⟨keyword, same⟩ := arises
    exact .append (.append (.of_actionName same) _) _
  | outOfRange name least most found =>
    obtain ⟨keyword, same⟩ := arises
    have begins := BeginsOtherwise.of_actionName same
    exact .append (.append (.append (.append (.append (.append begins _) _) _) _) _) _
  | invalidSeverity level => exact arises.elim
  | unknownDirective _ | invalidAuditLogPart _ | unknownOperator _ | unknownAction _
  | unknownTransform _ | unknownCtlOption _ | unknownBodyProcessor _ | invalidIdRange _ =>
    refine .append ?_ _
    constructor <;> exact Text.differ_ofList (by decide)
  | emptyMacroKey _ | invalidMacroKey _ | operatorNeedsArgument _ | operatorTakesNothing _ =>
    refine .append (.append ?_ _) _
    constructor <;> exact Text.differ_ofList (by decide)
  | invalidListItem operator what found =>
    refine .append (.append (.append (.append (.append ?_ _) _) _) _) _
    constructor <;> exact Text.differ_ofList (by decide)
  | missingText what =>
    cases what <;>
      exact .expected (Text.differ_ofList (by decide)) (Text.differ_ofList (by decide))
  | missingMember action =>
    refine .append ?_ _
    cases action <;> constructor <;> exact Text.differ_ofList (by decide)
  | twoModifiers | unclosedSelectorQuote | unclosedRegex | emptyRegex | unclosedMacro
  | unclosedValueQuote | deletedWithValue | missingExpiry | missingInitKey | missingTarget =>
    constructor <;> exact Text.differ_ofList (by decide)

/-- The messages of malformed texts begin otherwise too. -/
theorem LexCause.message_begins (cause : LexCause) : BeginsOtherwise cause.message := by
  cases cause with
  | strayCharacter _ | nameCharacter _ =>
    refine .append ?_ _
    constructor <;> exact Text.differ_ofList (by decide)
  | unterminatedEscape | strayBackslash | unterminatedQuote =>
    constructor <;> exact Text.differ_ofList (by decide)

end WafRules
