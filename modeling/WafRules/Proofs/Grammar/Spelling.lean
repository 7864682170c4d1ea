import WafRules.Proofs.Grammar.Tokens

/-!
# The text of arguments

Between the marks of an argument every token is spelled by a stretch of the source.  The stretches
stand one behind the other, and between them there is nothing but line continuations.  A word
may have continuations inside its stretch; they leave no trace in its text.

While an argument is read, the units so far are in part complete tokens and in part pending.  What
one more unit does is therefore stated with both (`Advances`): it may complete tokens, and what is
pending then has been taken from the units behind the complete ones.  The relation to prove is about
what follows as well, which is why `Advances` takes the spelling of what follows as given.

## Main Definitions

* `Atom.text`, `argumentText` — what units of an argument, and its source, say.
* `Spelled` — tokens with the stretches of units that spell them.

## Main Statements

* `argumentText_bodySource` — the source of an argument says what its units say.
* `spelled_bodyTokens` — the words of an argument are spelled by its units.
-/

namespace WafRules

namespace Grammar

open Lexer (Run Quoting token)

/-! ### What an argument says

The reading of the source of an argument by the rules of the language, on characters and on
units. -/

/-- What a unit says: a continuation nothing, and an escaped double quote inside quotes the
quote.  Every other pair is kept as it is written. -/
def Atom.text (style : Style) : Atom → List Char
  | char c => [c]
  | pair c => if style = .quoted ∧ c = '\x22' then ['\x22'] else ['\\', c]
  | continuation _ => []

/-- What units one after the other say. -/
def bodyText (style : Style) (body : List Atom) : List Char := body.flatMap (Atom.text style)

@[simp]
theorem bodyText_nil (style : Style) : bodyText style [] = [] := rfl

@[simp]
theorem bodyText_cons (style : Style) (atom : Atom) (body : List Atom) :
    bodyText style (atom :: body) = atom.text style ++ bodyText style body := rfl

theorem bodyText_append (style : Style) (first second : List Atom) :
    bodyText style (first ++ second) = bodyText style first ++ bodyText style second :=
  List.flatMap_append

theorem bodySource_append (first second : List Atom) :
    bodySource (first ++ second) = bodySource first ++ bodySource second :=
  List.flatMap_append

/-- What the source of an argument says: line continuations are deleted, and inside quotes a
backslash and a double quote stand for the quote.  A backslash takes the character behind it with
it in every other case too. -/
def argumentText (style : Style) : List Char → List Char
  | '\\' :: '\n' :: cs => argumentText style cs
  | '\\' :: '\r' :: '\n' :: cs => argumentText style cs
  | '\\' :: c :: cs =>
    (if style = .quoted ∧ c = '\x22' then ['\x22'] else ['\\', c]) ++ argumentText style cs
  | c :: cs => c :: argumentText style cs
  | [] => []

/-- A pair says **what it says as a unit**, if it is none that continues a line. -/
theorem argumentText_pair (style : Style) {c : Char} {cs : List Char}
    (pairs : ¬ Continues c cs) :
    argumentText style ('\\' :: c :: cs) = (Atom.pair c).text style ++ argumentText style cs := by
  have notLineFeed : c ≠ '\n' := fun h => pairs (.inl h)
  have notReturn : ∀ ds, c = '\r' → cs ≠ '\n' :: ds := by
    rintro ds rfl rfl
    exact pairs (.inr ⟨rfl, rfl⟩)
  rw [argumentText]
  · rfl
  · exact notLineFeed
  · exact notReturn

/-- A character other than a backslash stands for itself. -/
theorem argumentText_char (style : Style) {c : Char} (notBackslash : c ≠ '\\') (cs : List Char) :
    argumentText style (c :: cs) = c :: argumentText style cs := by
  rw [argumentText]
  all_goals
    intros
    contradiction

/-- Units fit one after the other when those behind fit, and those in front fit before them. -/
theorem bodyFits_append {style : Style} {after : List Char} {first second : List Atom} :
    BodyFits style after (first ++ second) ↔
      BodyFits style (bodySource second ++ after) first ∧ BodyFits style after second := by
  induction first with
  | nil => exact ⟨fun fits => ⟨trivial, fits⟩, fun fits => fits.2⟩
  | cons atom first ih =>
    rw [List.cons_append, BodyFits, BodyFits, ih, bodySource_append, List.append_assoc, and_assoc]

/-- The text of an argument is **what its units say.** -/
theorem argumentText_bodySource {style : Style} {after : List Char} {body : List Atom}
    (fits : BodyFits style after body) :
    argumentText style (bodySource body) = bodyText style body := by
  induction body with
  | nil => rfl
  | cons atom body ih =>
    obtain ⟨atomFits, bodyFits⟩ := fits
    rw [bodySource_cons, bodyText_cons, ← ih bodyFits]
    cases atom with
    | char c =>
      have notBackslash : c ≠ '\\' := by
        cases style with
        | bare => exact atomFits.2.2
        | quoted => exact atomFits.2.1
      exact argumentText_char style notBackslash _
    | pair c =>
      refine argumentText_pair style fun continues => atomFits ?_
      rcases continues with lineFeed | ⟨carriageReturn, head⟩
      · exact .inl lineFeed
      · have behind : (bodySource body).head? = some '\n' := head
        refine .inr ⟨carriageReturn, ?_⟩
        rw [List.head?_append, behind]
        rfl
    | continuation ending => cases ending <;> rfl

/-- What the lexer takes a pair for is **what the unit says**. -/
theorem escapedText_toList (quoting : Quoting) (c : Char) :
    (Lexer.escapedText quoting c).toList = (Atom.pair c).text (styleOf quoting) := by
  cases quoting with
  | bare =>
    show (String.ofList ['\\', c]).toList = _
    rw [String.toList_ofList]
    rfl
  | quoted opened =>
    unfold Lexer.escapedText Atom.text
    by_cases quote : c = '\x22' <;> simp [styleOf, quote]

/-! ### Tokens and the units that spell them

The relation between tokens and units that is to be proved of the tokens of an argument. -/

/-- Whether units spell a token: their text is its text, and they are what a token of its kind is
made of.  A word begins with a character or a pair. -/
def Takes (style : Style) (t : Token) (taken : List Atom) : Prop :=
  t.value.toList = bodyText style taken ∧
    match t.kind with
    | .word => ∃ atom rest, taken = atom :: rest ∧ ∀ ending, atom ≠ .continuation ending
    | .blanks => taken ≠ [] ∧ ∀ atom ∈ taken, ∃ c, atom = .char c
    | .punct punct => taken = [.char punct.char]
    | _ => False

/-- Tokens that are spelled by units from a place on, in order and without gaps other than line
continuations. -/
inductive Spelled (style : Style) : Position → List Token → List Atom → Prop
  | nil (p : Position) : Spelled style p [] []
  | skip {p : Position} {tokens : List Token} {body : List Atom} (ending : LineBreak)
      (rest : Spelled style (p.advance (continuation ending)) tokens body) :
      Spelled style p tokens (.continuation ending :: body)
  | take {p : Position} {t : Token} {taken : List Atom} {tokens : List Token} {body : List Atom}
      (placed : t.position = p) (takes : Takes style t taken)
      (rest : Spelled style (p.advance (bodySource taken)) tokens body) :
      Spelled style p (t :: tokens) (taken ++ body)

/-- The texts of the tokens are the text of the units. -/
theorem Spelled.values {style : Style} {p : Position} {tokens : List Token} {body : List Atom}
    (spelled : Spelled style p tokens body) :
    tokens.flatMap (fun t => t.value.toList) = bodyText style body := by
  induction spelled with
  | nil p => rfl
  | skip ending rest ih => exact ih
  | take placed takes rest ih => rw [List.flatMap_cons, ih, takes.1, bodyText_append]

/-- Every token takes some of the units. -/
theorem Spelled.exists_takes {style : Style} {p : Position} {tokens : List Token}
    {body : List Atom} (spelled : Spelled style p tokens body) {t : Token} (member : t ∈ tokens) :
    ∃ taken, taken ⊆ body ∧ Takes style t taken := by
  induction spelled with
  | nil p => cases member
  | skip ending rest ih =>
    obtain ⟨taken, within, takes⟩ := ih member
    exact ⟨taken, List.subset_cons_of_subset _ within, takes⟩
  | take placed takes rest ih =>
    rcases List.mem_cons.mp member with rfl | later
    · exact ⟨_, List.subset_append_left _ _, takes⟩
    · obtain ⟨taken, within, takes⟩ := ih later
      exact ⟨taken, List.subset_append_of_subset_right _ within, takes⟩

/-! ### The words of an argument

The proof goes through the units from left to right, with the units of the pending text set
apart. -/

/-- Whether pending text has been taken from units that began at a place. -/
def Pending.Took (style : Style) (p : Position) (taken : List Atom) : Pending → Prop
  | nothing => taken = []
  | word run => run.start = p ∧ Takes style (token .word run.text run.start) taken
  | blanks run => run.start = p ∧ Takes style (token .blanks run.text run.start) taken

/-- Pending text becomes a token in front of what follows. -/
theorem Pending.Took.flush {style : Style} {p : Position} {taken : List Atom} {pending : Pending}
    (took : pending.Took style p taken) {tokens : List Token} {body : List Atom}
    (rest : Spelled style (p.advance (bodySource taken)) tokens body) :
    Spelled style p (pending.tokens ++ tokens) (taken ++ body) := by
  cases pending with
  | nothing =>
    obtain rfl : taken = [] := took
    exact rest
  | word run =>
    obtain ⟨start, takes⟩ := took
    exact .take start takes rest
  | blanks run =>
    obtain ⟨start, takes⟩ := took
    exact .take start takes rest

/-- What one more unit does to tokens and units so far.  The units split into those whose tokens
are complete and those that are pending; what follows is spelled behind the complete ones. -/
inductive Advances (style : Style) (p : Position) (taken : List Atom) (atom : Atom)
    (tokens : List Token) (pending : Pending) : Prop
  | intro (complete kept : List Atom) (split : taken ++ [atom] = complete ++ kept)
      (took : pending.Took style (p.advance (bodySource complete)) kept)
      (spells : ∀ {others : List Token} {body : List Atom},
        Spelled style (p.advance (bodySource complete)) others body →
          Spelled style p (tokens ++ others) (complete ++ body))

/-- A unit that begins something new behind what was pending. -/
theorem Pending.Took.begin {style : Style} {p : Position} {taken : List Atom}
    {pending next : Pending} (took : pending.Took style p taken) {atom : Atom}
    (tookNext : next.Took style (p.advance (bodySource taken)) [atom]) :
    Advances style p taken atom pending.tokens next :=
  ⟨taken, [atom], rfl, tookNext, took.flush⟩

/-- A unit that belongs to what was pending. -/
theorem Pending.Took.join {style : Style} {p : Position} {taken : List Atom} {next : Pending}
    {atom : Atom} (tookNext : next.Took style p (taken ++ [atom])) :
    Advances style p taken atom [] next :=
  ⟨[], taken ++ [atom], rfl, tookNext, fun rest => rest⟩

/-- Text other than that of a continuation begins a word. -/
theorem takes_word {style : Style} {atom : Atom} {text : String} {p : Position}
    (written : text.toList = atom.text style) (solid : ∀ ending, atom ≠ .continuation ending) :
    Takes style (token .word text p) [atom] := by
  refine ⟨?_, atom, [], rfl, solid⟩
  show text.toList = _
  rw [written, bodyText_cons, bodyText_nil, List.append_nil]

/-- A word goes on with any unit. -/
theorem takes_word_append {style : Style} {atom : Atom} {word text : String} {p : Position}
    {taken : List Atom} (takes : Takes style (token .word word p) taken)
    (written : text.toList = atom.text style) :
    Takes style (token .word (word ++ text) p) (taken ++ [atom]) := by
  obtain ⟨value, first, rest, rfl, solid⟩ := takes
  refine ⟨?_, first, rest ++ [atom], rfl, solid⟩
  show (word ++ text).toList = _
  rw [String.toList_append, bodyText_append, ← value, written, bodyText_cons, bodyText_nil,
    List.append_nil]
  rfl

/-- Text that says what a unit does goes on with the pending word, or begins one. -/
theorem Pending.extend_advances {style : Style} {p : Position} {taken : List Atom}
    {pending : Pending} {atom : Atom} {text : String} (took : pending.Took style p taken)
    (written : text.toList = atom.text style) (solid : ∀ ending, atom ≠ .continuation ending) :
    Advances style p taken atom (pending.extend (p.advance (bodySource taken)) text).1
      (pending.extend (p.advance (bodySource taken)) text).2 := by
  cases pending with
  | nothing =>
    exact took.begin ⟨rfl, takes_word written solid⟩
  | word run =>
    obtain ⟨start, takes⟩ := took
    exact Pending.Took.join ⟨start, takes_word_append takes written⟩
  | blanks run => exact took.begin ⟨rfl, takes_word written solid⟩

/-- A blank **begins a run** of blanks. -/
theorem takes_blank (style : Style) (c : Char) (p : Position) :
    Takes style (token .blanks c.toString p) [.char c] := by
  refine ⟨?_, List.cons_ne_nil _ _, ?_⟩
  · show c.toString.toList = _
    simp [Atom.text]
  · intro atom member
    exact ⟨c, List.mem_singleton.mp member⟩

/-- A blank **goes on with a run** of blanks. -/
theorem takes_blank_append {style : Style} {c : Char} {run : String} {p : Position}
    {taken : List Atom} (takes : Takes style (token .blanks run p) taken) :
    Takes style (token .blanks (run.push c) p) (taken ++ [.char c]) := by
  obtain ⟨value, -, chars⟩ := takes
  refine ⟨?_, by simp, ?_⟩
  · show (run.push c).toList = _
    have value' : run.toList = bodyText style taken := value
    rw [String.toList_push, bodyText_append, ← value']
    rfl
  · intro atom member
    rcases List.mem_append.mp member with before | last
    · exact chars atom before
    · exact ⟨c, List.mem_singleton.mp last⟩

/-- A blank goes on with the pending blanks, or begins a run of them. -/
theorem Pending.pushBlank_advances {style : Style} {p : Position} {taken : List Atom}
    {pending : Pending} {c : Char} (took : pending.Took style p taken) :
    Advances style p taken (.char c) (pending.pushBlank (p.advance (bodySource taken)) c).1
      (pending.pushBlank (p.advance (bodySource taken)) c).2 := by
  cases pending with
  | nothing => exact took.begin ⟨rfl, takes_blank style c _⟩
  | word run => exact took.begin ⟨rfl, takes_blank style c _⟩
  | blanks run =>
    obtain ⟨start, takes⟩ := took
    exact Pending.Took.join ⟨start, takes_blank_append takes⟩

/-- A continuation belongs to the pending word, and to no token otherwise. -/
theorem Pending.interrupt_advances {style : Style} {p : Position} {taken : List Atom}
    {pending : Pending} (took : pending.Took style p taken) (ending : LineBreak) :
    Advances style p taken (.continuation ending) pending.interrupt.1 pending.interrupt.2 := by
  have skipped {others : List Token} {body : List Atom}
      (rest :
        Spelled style (p.advance (bodySource (taken ++ [.continuation ending]))) others body) :
      Spelled style (p.advance (bodySource taken)) others (.continuation ending :: body) := by
    refine .skip ending ?_
    rw [bodySource_append, Position.advance_append, bodySource_cons, bodySource_nil,
      List.append_nil] at rest
    exact rest
  cases pending with
  | word run =>
    obtain ⟨start, takes⟩ := took
    refine Pending.Took.join ⟨start, ?_⟩
    have joined : Takes style (token .word (run.text ++ "") run.start)
        (taken ++ [.continuation ending]) := takes_word_append takes rfl
    rwa [String.append_empty] at joined
  | nothing | blanks run =>
    refine ⟨taken ++ [.continuation ending], [], (List.append_nil _).symm, rfl, fun rest => ?_⟩
    rw [List.append_assoc]
    exact took.flush (skipped rest)

/-- A punctuation character is a token of its own. -/
theorem Pending.Took.punct {style : Style} {p : Position} {taken : List Atom} {pending : Pending}
    (took : pending.Took style p taken) {c : Char} {punct : Punct}
    (found : Punct.ofChar? c = some punct) :
    Advances style p taken (.char c)
      (pending.tokens ++ [token (.punct punct) c.toString (p.advance (bodySource taken))])
      .nothing := by
  obtain rfl := Punct.ofChar?_eq_some_iff.mp found
  refine ⟨taken ++ [.char punct.char], [], (List.append_nil _).symm, rfl, fun rest => ?_⟩
  rw [List.append_assoc, List.append_assoc]
  refine took.flush (.take rfl ⟨?_, rfl⟩ ?_)
  · show punct.char.toString.toList = _
    simp [Atom.text]
  · rw [bodySource_append, Position.advance_append] at rest
    exact rest

/-- One **unit of an argument.** -/
theorem Atom.read_advances {quoting : Quoting} {p : Position} {taken : List Atom}
    {pending : Pending} (took : pending.Took (styleOf quoting) p taken) (atom : Atom) :
    Advances (styleOf quoting) p taken atom
      (atom.read quoting (p.advance (bodySource taken)) pending).1
      (atom.read quoting (p.advance (bodySource taken)) pending).2 := by
  cases atom with
  | char c =>
    unfold Atom.read
    dsimp only
    split
    · exact Pending.pushBlank_advances took
    · cases found : Punct.ofChar? c with
      | none => exact Pending.extend_advances took (by simp [Atom.text]) (by rintro ending ⟨⟩)
      | some punct => exact took.punct found
  | pair c =>
    exact Pending.extend_advances took (escapedText_toList quoting c) (by rintro ending ⟨⟩)
  | continuation ending => exact Pending.interrupt_advances took ending

/-- Several **units one after the other.**  By induction; what is pending before the first of them
was taken from units that stand in front. -/
theorem spelled_readBody {quoting : Quoting} {p : Position} {taken : List Atom}
    {pending : Pending} (took : pending.Took (styleOf quoting) p taken) (body : List Atom) :
    Spelled (styleOf quoting) p
      ((readBody quoting (p.advance (bodySource taken)) pending body).1 ++
        (readBody quoting (p.advance (bodySource taken)) pending body).2.tokens)
      (taken ++ body) := by
  induction body generalizing p taken pending with
  | nil =>
    have last := took.flush (Spelled.nil _)
    rw [List.append_nil] at last
    exact last
  | cons atom body ih =>
    obtain ⟨complete, kept, split, tookNext, spells⟩ := Atom.read_advances took atom
    have place : (p.advance (bodySource taken)).advance atom.source =
        (p.advance (bodySource complete)).advance (bodySource kept) := by
      rw [← Position.advance_append, ← Position.advance_append, ← bodySource_append, ← split,
        bodySource_append, bodySource_cons, bodySource_nil, List.append_nil]
    have units : taken ++ atom :: body = complete ++ (kept ++ body) := by
      rw [← List.append_assoc, ← split, List.append_assoc]
      rfl
    rw [readBody_cons, place, units, List.append_assoc]
    exact spells (ih tookNext)

/-- The **words of an argument are spelled by its units.** -/
theorem spelled_bodyTokens (quoting : Quoting) (p : Position) (body : List Atom) :
    Spelled (styleOf quoting) p (bodyTokens quoting p body) body := by
  have nothing : Pending.nothing.Took (styleOf quoting) p [] := rfl
  exact spelled_readBody nothing body

end Grammar

end WafRules
