import WafRules.Proofs.Stretches

/-!
# Escaped quotes

In the value of an action a single quote is written with a backslash, which is left out of what is
stored.  Backslashes are paired with the characters behind them when a text is cut into tokens, and
a single quote outside such a pair is a token of its own.  The value, though, is unescaped after its
tokens are joined, by a search for a backslash directly before a single quote.  Inside a token the
search finds the pairs of single quotes and nothing else.  Across a border it finds something else:
an escaped backslash at the end of a word, when the next token is a single quote.  Then the second
backslash of that pair is left out, too.  In a value between quotes there is no such border.

## Main Definitions

* `unescapePairs` — a text whose pairs of single quotes are read.
* `Slips` — tokens with an escaped backslash in front of a single quote of its own.
* `storedText` — what is stored for tokens.

## Main Statements

* `unescapeQuotes_values` — what the search makes of tokens.
* `storedText_eq_iff` — when every token is unescaped by itself.
* `readValue_of_argument` — the values of the actions of a text.
-/

namespace WafRules

namespace ExpandableString

/-! ### Pairs and borders

Unescaping is first compared on two texts that are joined.  The search sees the pairs of both texts,
and at the border one thing more, if the first text ends in a backslash and the second begins with a
single quote. -/

/-- A text in which an **escaped single quote is the quote alone.**  Every backslash is paired with
the character behind it, from the left, and the other pairs stay as they are. -/
def unescapePairs : List Char → List Char
  | '\\' :: c :: cs => (if c = '\x27' then ['\x27'] else ['\\', c]) ++ unescapePairs cs
  | c :: cs => c :: unescapePairs cs
  | [] => []

/-- Whether a token ends with a backslash and a single quote follows it. -/
def EndsBeforeQuote (t : Token) (rest : List Token) : Prop :=
  t.value.toList.getLast? = some '\\' ∧ rest.head?.any (·.isKind (.punct .singleQuote)) = true

instance (t : Token) (rest : List Token) : Decidable (EndsBeforeQuote t rest) :=
  inferInstanceAs (Decidable (_ ∧ _))

/-- What is **stored for tokens**: each is unescaped by itself, and loses the backslash at its end
in front of a single quote. -/
def storedText : List Token → List Char
  | [] => []
  | t :: rest =>
    let own := unescapePairs t.value.toList
    (if EndsBeforeQuote t rest then own.dropLast else own) ++ storedText rest

/-- Whether a backslash at the end of a token meets a single quote. -/
def Slips (tokens : List Token) : Prop :=
  ∃ front t rest, tokens = front ++ t :: rest ∧ EndsBeforeQuote t rest

/-- A backslash is only left out in front of a single quote. -/
theorem unescapeQuotes_cons {c : Char} {cs : List Char}
    (alone : ¬ (c = '\\' ∧ cs.head? = some '\x27')) :
    unescapeQuotes (c :: cs) = c :: unescapeQuotes cs := by
  rw [unescapeQuotes]
  rintro rest rfl rfl
  exact alone ⟨rfl, rfl⟩

/-- One more character in front leaves the end alone. -/
theorem cons_ite_dropLast {α : Type} {a : α} {as : List α} (nonempty : as ≠ []) (condition : Prop)
    [Decidable condition] :
    a :: (if condition then as.dropLast else as) =
      if condition then (a :: as).dropLast else a :: as := by
  split
  · exact (List.dropLast_cons_of_ne_nil nonempty).symm
  · rfl

/-- The search in joined texts is that in both, but for a backslash between them.  There the last
backslash of the front is taken for one that escapes the quote, and is dropped. -/
theorem unescapeQuotes_append (front back : List Char) :
    unescapeQuotes (front ++ back) =
      (if front.getLast? = some '\\' ∧ back.head? = some '\x27' then
        (unescapeQuotes front).dropLast else unescapeQuotes front) ++ unescapeQuotes back := by
  -- Only a front of one character is next to `back`, so only there the border is looked at.
  fun_induction unescapeQuotes front with
  | case1 cs ih =>
    show '\x27' :: unescapeQuotes (cs ++ back) = _
    rw [ih]
    cases cs with
    | nil => simp [unescapeQuotes]
    | cons d cs =>
      rw [List.getLast?_cons_cons, List.getLast?_cons_cons,
        ← cons_ite_dropLast (unescapeQuotes_ne_nil (List.cons_ne_nil d cs))]
      rfl
  | case2 c cs other ih =>
    cases cs with
    | nil =>
      by_cases slips : c = '\\' ∧ back.head? = some '\x27'
      · obtain ⟨rfl, quote⟩ := slips
        obtain ⟨rest, rfl⟩ := List.head?_eq_some_iff.mp quote
        have kept : unescapeQuotes ('\x27' :: rest) = '\x27' :: unescapeQuotes rest :=
          unescapeQuotes_cons fun both => absurd both.1 (by decide)
        rw [kept]
        rfl
      · have same : ¬ ([c].getLast? = some '\\' ∧ back.head? = some '\x27') := by
          simpa using slips
        rw [List.cons_append, List.nil_append, unescapeQuotes_cons slips, if_neg same]
        rfl
    | cons d cs =>
      have alone : ¬ (c = '\\' ∧ (d :: cs ++ back).head? = some '\x27') := by
        rintro ⟨rfl, quote⟩
        exact other cs rfl (by simpa using quote)
      rw [List.cons_append, unescapeQuotes_cons alone, ih, List.getLast?_cons_cons,
        ← cons_ite_dropLast (unescapeQuotes_ne_nil (List.cons_ne_nil d cs))]
      rfl
  | case3 => simp

/-! ### Tokens

Tokens of an argument are of three kinds, and only words can have backslashes in them.  In a word
all of them are paired, so inside of it the search and the pairs agree. -/

/-- A word does not begin with a single quote. -/
theorem head?_ne_of_wordText {cs : List Char} (word : WordText cs) : cs.head? ≠ some '\x27' := by
  cases word with
  | nil => exact nofun
  | pair c rest => simp
  | char notBackslash notBlank notPunct rest =>
    intro quote
    obtain rfl := Option.some.inj quote
    cases notPunct

theorem unescapePairs_cons {c : Char} (notBackslash : c ≠ '\\') (cs : List Char) :
    unescapePairs (c :: cs) = c :: unescapePairs cs := by
  rw [unescapePairs]
  rintro d rest rfl
  exact absurd rfl notBackslash

/-- Inside a word the search finds the pairs of single quotes. -/
theorem unescapeQuotes_of_wordText {cs : List Char} (word : WordText cs) :
    unescapeQuotes cs = unescapePairs cs := by
  induction word with
  | nil => rfl
  | @pair c text rest ih =>
    by_cases quote : c = '\x27'
    · subst quote
      exact congrArg _ ih
    · -- neither character of another pair stands before a single quote of its own
      have first : ¬ ('\\' = '\\' ∧ (c :: text).head? = some '\x27') := by simpa using quote
      have second : ¬ (c = '\\' ∧ text.head? = some '\x27') :=
        fun both => head?_ne_of_wordText rest both.2
      rw [unescapeQuotes_cons first, unescapeQuotes_cons second, ih, unescapePairs, if_neg quote]
      rfl
  | @char c text notBackslash notBlank notPunct rest ih =>
    rw [unescapeQuotes_cons fun both => notBackslash both.1, unescapePairs_cons notBackslash, ih]

/-- A text without backslashes is its own. -/
theorem unescape_of_notMem {cs : List Char} (noBackslash : '\\' ∉ cs) :
    unescapeQuotes cs = cs ∧ unescapePairs cs = cs := by
  induction cs with
  | nil => exact ⟨rfl, rfl⟩
  | cons c cs ih =>
    obtain ⟨other, rest⟩ := List.ne_and_not_mem_of_not_mem_cons noBackslash
    obtain ⟨quotes, pairs⟩ := ih rest
    rw [unescapeQuotes_cons fun both => other both.1.symm, unescapePairs_cons (Ne.symm other),
      quotes, pairs]
    exact ⟨rfl, rfl⟩

/-- Inside a token the search finds the pairs of single quotes. -/
theorem unescapeQuotes_of_holds {style : Grammar.Style} {t : Token} (holds : style.Holds t) :
    unescapeQuotes t.value.toList = unescapePairs t.value.toList := by
  obtain ⟨⟨kind, value⟩, position⟩ := t
  obtain ⟨-, shape⟩ := holds
  dsimp only
  cases kind with
  | word => exact unescapeQuotes_of_wordText shape
  | blanks =>
    obtain ⟨-, blanks⟩ := shape
    have noBackslash : '\\' ∉ value.toList := fun member => absurd (blanks _ member) (by decide)
    obtain ⟨quotes, pairs⟩ := unescape_of_notMem noBackslash
    exact quotes.trans pairs.symm
  | punct punct =>
    have char : value.toList = [punct.char] := shape
    have noBackslash : '\\' ∉ value.toList := by
      rw [char]
      cases punct <;> decide
    obtain ⟨quotes, pairs⟩ := unescape_of_notMem noBackslash
    exact quotes.trans pairs.symm
  | _ => exact shape.elim

/-- A token begins with a single quote when it is one. -/
theorem head?_value_iff {style : Grammar.Style} {t : Token} (holds : style.Holds t) :
    t.value.toList.head? = some '\x27' ↔ t.isKind (.punct .singleQuote) = true := by
  obtain ⟨⟨kind, value⟩, position⟩ := t
  obtain ⟨-, shape⟩ := holds
  show value.toList.head? = some '\x27' ↔ (kind == .punct .singleQuote) = true
  cases kind with
  | word => exact ⟨fun quote => absurd quote (head?_ne_of_wordText shape), nofun⟩
  | blanks =>
    obtain ⟨-, blanks⟩ := shape
    refine ⟨fun quote => ?_, nofun⟩
    exact absurd (blanks _ (List.mem_of_mem_head? quote)) (by decide)
  | punct punct =>
    have char : value.toList = [punct.char] := shape
    rw [char]
    cases punct <;> decide
  | _ => exact shape.elim

/-- What the **search makes of tokens.**  By induction on them: what follows a token counts with its
first character alone. -/
theorem unescapeQuotes_values {tokens : List Token}
    (holds : ∀ t ∈ tokens, ∃ style : Grammar.Style, style.Holds t) :
    unescapeQuotes (tokens.flatMap fun t => t.value.toList) = storedText tokens := by
  induction tokens with
  | nil => rfl
  | cons t rest ih =>
    obtain ⟨⟨style, here⟩, later⟩ := List.forall_mem_cons.mp holds
    have quote : (rest.flatMap fun t => t.value.toList).head? = some '\x27' ↔
        rest.head?.any (·.isKind (.punct .singleQuote)) = true := by
      cases rest with
      | nil => exact ⟨nofun, nofun⟩
      | cons next rest =>
        obtain ⟨style', next'⟩ := later next List.mem_cons_self
        have nonempty : next.value.toList ≠ [] :=
          fun none => next'.1 (String.toList_injective none)
        rw [List.flatMap_cons, List.head?_append_of_ne_nil _ nonempty]
        exact head?_value_iff next'
    rw [List.flatMap_cons, unescapeQuotes_append, ih later, unescapeQuotes_of_holds here,
      storedText]
    simp only [quote]
    rfl

/-! ### When every token is unescaped by itself

What is lost is one character for each border of that kind, so the stored text has the right length
only when there is no such border. -/

/-- The tokens, each unescaped by itself. -/
def pairedText (tokens : List Token) : List Char :=
  tokens.flatMap fun t => unescapePairs t.value.toList

theorem slips_cons (t : Token) (rest : List Token) :
    Slips (t :: rest) ↔ EndsBeforeQuote t rest ∨ Slips rest := by
  constructor
  · rintro ⟨front, u, back, same, ends⟩
    rcases front with - | ⟨first, front⟩
    · cases same
      exact .inl ends
    · cases same
      exact .inr ⟨front, u, back, rfl, ends⟩
  · rintro (ends | ⟨front, u, back, rfl, ends⟩)
    · exact ⟨[], t, rest, rfl, ends⟩
    · exact ⟨t :: front, u, back, rfl, ends⟩

theorem storedText_of_not_slips {tokens : List Token} (apart : ¬ Slips tokens) :
    storedText tokens = pairedText tokens := by
  induction tokens with
  | nil => rfl
  | cons t rest ih =>
    rw [slips_cons, not_or] at apart
    rw [storedText, if_neg apart.1, ih apart.2]
    rfl

theorem unescapePairs_ne_nil {cs : List Char} (nonempty : cs ≠ []) : unescapePairs cs ≠ [] := by
  fun_cases unescapePairs cs with
  | case1 c cs => split <;> simp
  | case2 => exact List.cons_ne_nil _ _
  | case3 => exact nonempty

/-- Tokens that slip say less, because a backslash of theirs is lost and nothing is gained.
Comparing lengths is enough to tell that the two texts differ. -/
theorem length_storedText (tokens : List Token) :
    (storedText tokens).length ≤ (pairedText tokens).length ∧
      (Slips tokens → (storedText tokens).length < (pairedText tokens).length) := by
  induction tokens with
  | nil =>
    refine ⟨Nat.le_refl _, ?_⟩
    rintro ⟨front, t, rest, same, -⟩
    simp at same
  | cons t rest ih =>
    obtain ⟨most, less⟩ := ih
    have paired : (pairedText (t :: rest)).length =
        (unescapePairs t.value.toList).length + (pairedText rest).length := List.length_append
    rw [slips_cons, paired, storedText, List.length_append]
    by_cases ends : EndsBeforeQuote t rest
    · have nonempty : t.value.toList ≠ [] := by
        intro none
        rw [EndsBeforeQuote, none] at ends
        cases ends.1
      have some := List.length_pos_iff.mpr (unescapePairs_ne_nil nonempty)
      rw [if_pos ends, List.length_dropLast]
      omega
    · rw [if_neg ends]
      refine ⟨by omega, ?_⟩
      rintro (endsHere | slips)
      · exact absurd endsHere ends
      · have := less slips
        omega

/-- Every token is **unescaped by itself** unless one of them slips. -/
theorem storedText_eq_iff (tokens : List Token) :
    storedText tokens = pairedText tokens ↔ ¬ Slips tokens := by
  refine ⟨fun same slips => ?_, storedText_of_not_slips⟩
  exact absurd (congrArg List.length same) (Nat.ne_of_lt ((length_storedText tokens).2 slips))

/-- Without single quotes nothing slips. -/
theorem not_slips_of_forall {tokens : List Token}
    (noQuote : ∀ t ∈ tokens, ¬ t.isKind (.punct .singleQuote) = true) : ¬ Slips tokens := by
  rintro ⟨front, t, rest, rfl, -, quote⟩
  obtain ⟨u, first, isQuote⟩ := (Option.any_eq_true _ _).mp quote
  refine noQuote u ?_ isQuote
  exact List.mem_append_right _ (List.mem_cons_of_mem t (List.mem_of_mem_head? first))

/-- A value **between quotes** has no single quote of its own. -/
theorem noQuote_of_quotedValue {opening : Position} {w value rest : Window}
    (read : Action.quotedValue opening w = .ok (value, rest)) :
    ∀ t ∈ value.tokens, ¬ t.isKind (.punct .singleQuote) = true := by
  unfold Action.quotedValue at read
  cases found : w.index? (.punct .singleQuote) with
  | none =>
    rw [found] at read
    cases read
  | some close =>
    rw [found] at read
    cases read
    obtain ⟨front, quote, back, tokens, rfl, -, before⟩ := Window.index?_eq_some_iff.mp found
    intro t member
    have inFront : t ∈ front := by simpa [Window.splitAt, tokens] using member
    simpa [Token.isKind] using before t inFront

/-! ### Values of actions

The value of an action is cut out of an argument, whose tokens are known to have these forms. -/

/-- The part that is stored for a stretch. -/
def storedPart : Stretch → StringPart
  | .text tokens => .literal (String.ofList (storedText tokens))
  | .reference m => .reference m

/-- The value of an action is stored stretch by stretch. -/
theorem readValue_exists_cut {w : Window}
    (holds : ∀ t ∈ w.tokens, ∃ style : Grammar.Style, style.Holds t) {s : ExpandableString}
    (read : readValue w = .ok s) :
    ∃ stretches, Cut w stretches ∧ s.parts = stretches.map storedPart := by
  obtain ⟨raw, readRaw, same⟩ := bind_eq_ok_iff.mp read
  obtain rfl := Except.ok.inj same
  have solid : w.Solid := by
    intro t member
    obtain ⟨style, shape⟩ := holds t member
    exact shape.1
  obtain ⟨stretches, cut, parts⟩ := exists_cut solid readRaw
  refine ⟨stretches, cut, ?_⟩
  show raw.parts.map unescapePart = _
  rw [parts, List.map_map]
  refine List.map_congr_left fun stretch member => ?_
  cases stretch with
  | reference m => rfl
  | text tokens =>
    obtain ⟨-, inside⟩ := cut.isInfix_of_text_mem member
    have text := unescapeQuotes_values fun t inText => holds t (inside.subset inText)
    show StringPart.literal (String.ofList (unescapeQuotes (tokensText tokens).toList)) = _
    rw [tokensText, String.toList_ofList, text]
    rfl

/-- The **values of the actions of a text.**  What is stored for the tokens of a literal part, or of
the value of an action that is a plain text, is each of them unescaped by itself, unless one ends
with a backslash and a single quote follows it; then that backslash is lost. -/
theorem readValue_of_argument {label text : String} {tokens : List Token}
    (tokenized : tokenize label text = .ok tokens) {before body after : List Token}
    {start stop : Token} (split : tokens = before ++ start :: (body ++ stop :: after))
    (startKind : start.kind = .argumentStart) (stopKind : stop.kind = .argumentStop)
    (inside : ∀ t ∈ body, t.kind ≠ .argumentStop) {value : List Token} (within : value <:+: body)
    (closing : Token) :
    (∀ s, readValue ⟨value, closing⟩ = .ok s →
      ∃ stretches, Cut ⟨value, closing⟩ stretches ∧ s.parts = stretches.map storedPart ∧
        ∀ literal, .text literal ∈ stretches →
          (storedText literal = pairedText literal ↔ ¬ Slips literal)) ∧
    (∀ name, ActionValue.plain ⟨name, some ⟨value, closing⟩⟩ =
        .ok (String.ofList (storedText value)) ∧
      (storedText value = pairedText value ↔ ¬ Slips value)) ∧
    ∀ opening w rest, Action.quotedValue opening w = .ok (⟨value, closing⟩, rest) →
      ∀ literal, literal <:+: value → storedText literal = pairedText literal := by
  obtain ⟨entries, last, rfl, final, -, styles⟩ := exists_shapedEntries tokenized
  obtain ⟨d, listed, a, member, rfl, rfl, rfl⟩ :=
    exists_argument_of_split final split startKind stopKind inside
  obtain ⟨style, writes⟩ := styles d listed a member
  have holds : ∀ t ∈ value, ∃ style : Grammar.Style, style.Holds t :=
    fun t inValue => ⟨style, writes.holds t (within.subset inValue)⟩
  refine ⟨fun s read => ?_, fun name => ⟨?_, storedText_eq_iff value⟩, ?_⟩
  · obtain ⟨stretches, cut, parts⟩ := readValue_exists_cut holds read
    exact ⟨stretches, cut, parts, fun literal _ => storedText_eq_iff literal⟩
  · have text := unescapeQuotes_values holds
    show Except.ok (String.ofList (unescapeQuotes (Window.text ⟨value, closing⟩).toList)) = _
    rw [Window.text, String.toList_ofList, text]
  · intro opening w rest read literal inside
    refine storedText_of_not_slips (not_slips_of_forall fun t inLiteral => ?_)
    exact noQuote_of_quotedValue read t (inside.subset inLiteral)

open Lexer (token)

/-- A quote with a backslash, in a value without quotes around it. -/
theorem readValue_of_argument_pair :
    ∃ (before body after value : List Token) (start stop : Token) (stretches : List Stretch),
      tokenize "" "SecAction \"msg:it\\'s\"" = .ok (before ++ start :: (body ++ stop :: after)) ∧
      start.kind = .argumentStart ∧ stop.kind = .argumentStop ∧ value <:+: body ∧
      readValue ⟨value, stop⟩ = .ok ⟨[.literal "it's"]⟩ ∧ Cut ⟨value, stop⟩ stretches ∧
      stretches.map storedPart = [.literal "it's"] := by
  let value : List Token := [token .word "it\\'s" ⟨none, 1, 16⟩]
  let body : List Token :=
    token .word "msg" ⟨none, 1, 12⟩ :: token (.punct .colon) ":" ⟨none, 1, 15⟩ :: value
  let start : Token := token .argumentStart "\"" ⟨none, 1, 11⟩
  let stop : Token := token .argumentStop "\"" ⟨none, 1, 21⟩
  have tokenized : tokenize "" "SecAction \"msg:it\\'s\"" =
      .ok ([token .directive "SecAction" ⟨none, 1, 1⟩] ++
        start :: (body ++ stop :: [token .endOfInput "" ⟨none, 1, 22⟩])) := by
    decide +kernel
  have within : value <:+: body := ⟨[_, _], [], rfl⟩
  have read : readValue ⟨value, stop⟩ = .ok ⟨[.literal "it's"]⟩ := by decide +kernel
  obtain ⟨expandable, -⟩ :=
    readValue_of_argument tokenized rfl rfl rfl (by decide) within stop
  obtain ⟨stretches, cut, parts, -⟩ := expandable _ read
  exact ⟨_, body, _, value, start, stop, stretches, tokenized, rfl, rfl, within, read, cut,
    parts.symm⟩

/-- An escaped backslash in front of a single quote, in a value without quotes around it: the second
backslash of the pair is lost. -/
theorem readValue_of_argument_slip :
    ∃ (before body after value : List Token) (start stop : Token),
      tokenize "" "SecAction \"msg:a\\\\'b\"" = .ok (before ++ start :: (body ++ stop :: after)) ∧
      start.kind = .argumentStart ∧ stop.kind = .argumentStop ∧
      Action.read ⟨body, stop⟩ =
        .ok (⟨.text .msg ⟨[.literal "a\\'b"]⟩, ⟨none, 1, 12⟩⟩, ⟨[], stop⟩) ∧
      value <:+: body ∧ Cut ⟨value, stop⟩ [.text value] ∧
      readValue ⟨value, stop⟩ = .ok ⟨[.literal "a\\'b"]⟩ ∧
      pairedText value = "a\\\\'b".toList ∧ Slips value := by
  let value : List Token := [token .word "a\\\\" ⟨none, 1, 16⟩,
    token (.punct .singleQuote) "'" ⟨none, 1, 19⟩, token .word "b" ⟨none, 1, 20⟩]
  let stop : Token := token .argumentStop "\"" ⟨none, 1, 21⟩
  refine ⟨[token .directive "SecAction" ⟨none, 1, 1⟩],
    token .word "msg" ⟨none, 1, 12⟩ :: token (.punct .colon) ":" ⟨none, 1, 15⟩ :: value,
    [token .endOfInput "" ⟨none, 1, 22⟩], value, token .argumentStart "\"" ⟨none, 1, 11⟩, stop,
    ?_, rfl, rfl, ?_, ⟨[_, _], [], rfl⟩, ?_, ?_, ?_, ?_⟩
  · decide +kernel
  · decide +kernel
  · exact .token rfl (.token rfl (.token rfl .nil))
  · decide +kernel
  · decide +kernel
  · exact ⟨[], _, _, rfl, by decide, by decide⟩

end ExpandableString

end WafRules
