import WafRules.Proofs.Stretches

/-!
# References in an expandable string

A percent sign directly before an opening brace starts a reference, which is a word, possibly with a
dot and the name of a member behind it, and a closing brace.  No reference stands inside another
one, so a text has one division into references and the tokens between them.  It is readable when
there is such a division, and there is none exactly when some percent sign with its brace starts no
complete reference.

## Main Definitions

* `MacroRef.Spells` — the tokens of a reference.
* `Divides` — how tokens divide into references and single tokens of literal text.
* `Broken` — whether a reference is started and not completed.

## Main Statements

* `Divides.unique` — there is one division.
* `exists_divides_iff` — there is one unless a reference is broken.
* `ExpandableString.read_of_argument` — the strings that are read from the text of an argument.
-/

namespace WafRules

/-! ### The tokens of a reference

What a reference consists of, as an inductive description of its tokens, and the reader as the
function that takes such tokens off the front of a window.  The description has the reference as its
subject, so two references that the same tokens spell are equal. -/

namespace MacroRef

/-- Whether tokens begin with a **percent sign directly before an opening brace.** -/
def Opens : List Token → Prop
  | t :: u :: _ => t.kind = .punct .percent ∧ u.kind = .punct .curlyOpen
  | _ => False

theorem Opens.percent {t : Token} {tokens : List Token} (opens : Opens (t :: tokens)) :
    t.kind = .punct .percent := by
  cases tokens with
  | nil => exact opens.elim
  | cons u tokens => exact opens.1

/-- A token that starts no reference starts none with more tokens behind, unless a brace is the
first of them. -/
theorem not_opens_append {t : Token} {tokens back : List Token} (plain : ¬ Opens (t :: tokens))
    (border : ∀ u ∈ back.head?, u.kind ≠ .punct .curlyOpen) : ¬ Opens (t :: (tokens ++ back)) := by
  cases tokens with
  | cons u tokens => exact plain
  | nil =>
    cases back with
    | nil => exact id
    | cons u back => exact fun opens => border u rfl opens.2

/-- The tokens that the name of a member is made of. -/
def KeyToken (t : Token) : Prop :=
  t.kind ≠ .blanks ∧ t.kind ≠ .punct .percent ∧ t.kind ≠ .punct .curlyOpen ∧
    t.kind ≠ .punct .curlyClose

/-- The **tokens of a reference.** -/
inductive Spells : MacroRef → List Token → Prop
  | plain {percent brace name close : Token} (opens : Opens [percent, brace])
    (word : name.kind = .word) (closes : close.kind = .punct .curlyClose) :
    Spells ⟨none, name.value⟩ [percent, brace, name, close]
  | member {percent brace name dot close : Token} {key : List Token}
    (opens : Opens [percent, brace]) (word : name.kind = .word) (isDot : dot.kind = .punct .dot)
    (nonempty : key ≠ []) (valid : ∀ t ∈ key, KeyToken t)
    (closes : close.kind = .punct .curlyClose) :
    Spells ⟨some name.value, tokensText key⟩ (percent :: brace :: name :: dot :: (key ++ [close]))

theorem startsMacro_iff (w : Window) :
    ExpandableString.startsMacro w = true ↔ Opens w.tokens := by
  obtain ⟨tokens, closing⟩ := w
  rcases tokens with - | ⟨t, - | ⟨u, rest⟩⟩
  · exact ⟨nofun, nofun⟩
  · exact ⟨nofun, nofun⟩
  · simp [ExpandableString.startsMacro, Opens, Window.opensMacro, Token.isKind]

theorem invalidKeyToken?_eq_none_iff {tokens : List Token} :
    invalidKeyToken? tokens = none ↔ ∀ t ∈ tokens,
      t.kind ≠ .blanks ∧ t.kind ≠ .punct .percent ∧ t.kind ≠ .punct .curlyOpen := by
  simp [invalidKeyToken?, Token.isKind, and_assoc]

/-- The **key of a reference** is what stands in front of the first closing brace.  It has to be
there, without blanks, percent signs and braces. -/
theorem readKey_eq_ok_iff {opening : Position} {collection : String} {body rest : Window}
    {m : MacroRef} :
    readKey opening collection body = .ok (m, rest) ↔
      ∃ key close, body.tokens = key ++ close :: rest.tokens ∧ rest.closing = body.closing ∧
        key ≠ [] ∧ (∀ t ∈ key, KeyToken t) ∧ close.kind = .punct .curlyClose ∧
        m = ⟨some collection, tokensText key⟩ := by
  unfold readKey
  constructor
  · intro read
    cases found : body.index? (.punct .curlyClose) with
    | none => simp [found] at read
    | some close =>
      obtain ⟨key, brace, back, tokens, rfl, closes, before⟩ := Window.index?_eq_some_iff.mp found
      have parts : body.splitAt key.length = (⟨key, brace⟩, ⟨brace :: back, body.closing⟩) := by
        simp [Window.splitAt, Window.drop, tokens]
      simp only [found, parts] at read
      split at read
      · cases read
      · next nonempty =>
        cases invalid : invalidKeyToken? key with
        | some t => simp [invalid] at read
        | none =>
          rw [invalid] at read
          cases read
          refine
            ⟨key, brace, tokens, rfl, by simpa [Window.isEmpty] using nonempty, ?_, closes, rfl⟩
          intro t member
          obtain ⟨noBlank, noPercent, noBrace⟩ := invalidKeyToken?_eq_none_iff.mp invalid t member
          exact ⟨noBlank, noPercent, noBrace, before t member⟩
  · rintro ⟨key, brace, tokens, closing, nonempty, valid, closes, rfl⟩
    -- No token of a key is a brace, so the first closing brace is the one behind the key.
    have found : body.index? (.punct .curlyClose) = some key.length :=
      Window.index?_eq_some_iff.mpr
        ⟨key, brace, rest.tokens, tokens, rfl, closes, fun t member => (valid t member).2.2.2⟩
    have parts :
        body.splitAt key.length = (⟨key, brace⟩, ⟨brace :: rest.tokens, body.closing⟩) := by
      simp [Window.splitAt, Window.drop, tokens]
    have invalid : invalidKeyToken? key = none :=
      invalidKeyToken?_eq_none_iff.mpr fun t member =>
        ⟨(valid t member).1, (valid t member).2.1, (valid t member).2.2.1⟩
    rw [found]
    simp only [parts, invalid]
    rw [if_neg (by simpa [Window.isEmpty] using nonempty), ← closing]
    rfl

/-- A **reference is read** when its tokens are in front.  They say which reference it is, and the
reader leaves what is behind them. -/
theorem read_eq_ok_iff {w rest : Window} {m : MacroRef} (opens : Opens w.tokens) :
    MacroRef.read w = .ok (m, rest) ↔
      ∃ front, m.Spells front ∧ w.tokens = front ++ rest.tokens ∧ rest.closing = w.closing := by
  obtain ⟨tokens, closing⟩ := w
  rcases tokens with - | ⟨percent, - | ⟨brace, tokens⟩⟩
  · exact opens.elim
  · exact opens.elim
  -- The reader drops these two tokens without a look at them; the hypothesis says what they are.
  have opened : Opens [percent, brace] := opens
  constructor
  · intro read
    obtain ⟨⟨name, behind⟩, expected, read⟩ := bind_eq_ok_iff.mp read
    obtain ⟨rfl, word, closed⟩ := Window.expect_eq_ok_iff.mp expected
    dsimp only at read
    split at read
    · next starts =>
      obtain ⟨dot, back, same, isDot⟩ := Window.tokens_of_startsWith starts
      obtain ⟨key, close, tokens, closing', nonempty, valid, closes, rfl⟩ :=
        readKey_eq_ok_iff.mp read
      obtain rfl : back = key ++ close :: rest.tokens := by simpa [same] using tokens
      exact ⟨_, .member opened word isDot nonempty valid closes, by simp [same],
        closing'.trans closed⟩
    · obtain ⟨⟨close, last⟩, closed', same⟩ := bind_eq_ok_iff.mp read
      obtain ⟨tokens, closes, closing'⟩ := Window.expect_eq_ok_iff.mp closed'
      cases same
      exact ⟨_, .plain opened word closes, by simp [tokens], closing'.trans closed⟩
  · rintro ⟨front, spells, tokens', rfl⟩
    cases spells with
    | @plain _ _ name close _ word closes =>
      obtain ⟨rfl, rfl, rfl⟩ : _ ∧ _ ∧ tokens = name :: close :: rest.tokens := by
        simpa using tokens'
      refine bind_eq_ok_iff.mpr ⟨(name, ⟨close :: rest.tokens, rest.closing⟩),
        Window.expect_eq_ok_iff.mpr ⟨rfl, word, rfl⟩, ?_⟩
      dsimp only
      rw [if_neg (by simp [Window.startsWith, Token.isKind, closes])]
      exact bind_eq_ok_iff.mpr ⟨(close, rest), Window.expect_eq_ok_iff.mpr ⟨rfl, closes, rfl⟩, rfl⟩
    | @member _ _ name dot close key _ word isDot nonempty valid closes =>
      obtain ⟨rfl, rfl, rfl⟩ : _ ∧ _ ∧ tokens = name :: dot :: (key ++ close :: rest.tokens) := by
        simpa using tokens'
      refine bind_eq_ok_iff.mpr ⟨(name, ⟨dot :: (key ++ close :: rest.tokens), rest.closing⟩),
        Window.expect_eq_ok_iff.mpr ⟨rfl, word, rfl⟩, ?_⟩
      dsimp only
      rw [if_pos (by simp [Window.startsWith, Token.isKind, isDot])]
      exact readKey_eq_ok_iff.mpr ⟨key, close, rfl, rfl, nonempty, valid, closes, rfl⟩

variable {m m' : MacroRef} {front front' back back' : List Token}

theorem Spells.opens (spells : m.Spells front) (back : List Token) : Opens (front ++ back) := by
  cases spells with
  | plain opens => exact opens
  | member opens => exact opens

/-- No tokens begin with two references. -/
theorem Spells.unique (spells : m.Spells front) (spells' : m'.Spells front')
    (same : front ++ back = front' ++ back') : m = m' ∧ front = front' ∧ back = back' := by
  let closing : Token := ⟨⟨.endOfInput, ""⟩, default⟩
  have read : MacroRef.read ⟨front ++ back, closing⟩ = .ok (m, ⟨back, closing⟩) :=
    (read_eq_ok_iff (spells.opens back)).mpr ⟨front, spells, rfl, rfl⟩
  have read' : MacroRef.read ⟨front' ++ back', closing⟩ = .ok (m', ⟨back', closing⟩) :=
    (read_eq_ok_iff (spells'.opens back')).mpr ⟨front', spells', rfl, rfl⟩
  rw [same, read'] at read
  cases read
  exact ⟨rfl, List.append_cancel_right same, rfl⟩

/-- A reference has one percent sign, its first token. -/
theorem Spells.percent_notMem_tail (spells : m.Spells front) :
    ∀ t ∈ front.tail, t.kind ≠ .punct .percent := by
  cases spells with
  | plain opens word closes => simp [opens.2, word, closes]
  | member opens word isDot _ valid closes =>
    simp only [List.tail_cons, List.forall_mem_cons, List.forall_mem_append, opens.2, word, isDot,
      List.not_mem_nil, closes]
    simpa using fun t member => (valid t member).2.1

/-- The written form of a reference is the text of its tokens. -/
theorem Spells.render (spells : m.Spells front)
    (holds : ∀ t ∈ front, ∃ style : Grammar.Style, style.Holds t) :
    m.render.toList = front.flatMap fun t => t.value.toList := by
  have char {t : Token} {punct : Punct} (member : t ∈ front) (kind : t.kind = .punct punct) :
      t.value.toList = [punct.char] := by
    obtain ⟨style, -, shape⟩ := holds t member
    rwa [kind] at shape
  cases spells with
  | plain opens word closes =>
    simp [MacroRef.render, char (by simp) opens.1, char (by simp) opens.2, char (by simp) closes,
      Punct.char]
  | member opens word isDot _ _ closes =>
    simp [MacroRef.render, char (by simp) opens.1, char (by simp) opens.2, char (by simp) isDot,
      char (by simp) closes, Punct.char, tokensText]

end MacroRef

/-! ### Divisions

A division is a list of segments, each of them a reference or one token that no reference begins at.
It is unique because at every token one of the two is the case and not the other, and it exists
unless a reference begins that is not completed. -/

/-- A reference, or one token of literal text. -/
inductive Segment
  | text (t : Token)
  | reference (m : MacroRef) (tokens : List Token)

namespace Segment

/-- The reference of a segment that is one. -/
def macro? : Segment → Option MacroRef
  | text _ => none
  | reference m _ => some m

/-- What is pushed for a segment. -/
def part : Segment → StringPart
  | text t => .literal t.value
  | reference m _ => .reference m

/-- The stretches that segments make, in which literal text is joined to literal text. -/
def stretches : List Segment → List Stretch
  | [] => []
  | text t :: segments => Stretch.cons t (stretches segments)
  | reference m _ :: segments => .reference m :: stretches segments

theorem macros_stretches (segments : List Segment) :
    ((stretches segments).map Stretch.part).filterMap StringPart.macro? =
      segments.filterMap macro? := by
  induction segments with
  | nil => rfl
  | cons segment segments ih =>
    cases segment with
    | reference m tokens => exact congrArg (m :: ·) ih
    | text t =>
      rw [List.filterMap_cons_none rfl, ← ih, stretches]
      rcases stretches segments with - | ⟨_ | m, rest⟩ <;> rfl

theorem render_cons (t : Token) (all : List Stretch) :
    ((Stretch.cons t all).flatMap fun stretch => stretch.part.render.toList) =
      t.value.toList ++ all.flatMap fun stretch => stretch.part.render.toList := by
  rcases all with - | ⟨tokens | m, rest⟩ <;>
    simp [Stretch.cons, Stretch.part, StringPart.render, tokensText]

end Segment

open MacroRef (Opens)

/-- How tokens **divide** into references and single tokens that start none. -/
inductive Divides : List Token → List Segment → Prop
  | nil : Divides [] []
  | reference {m : MacroRef} {front back : List Token} {segments : List Segment}
    (spells : m.Spells front) (rest : Divides back segments) :
    Divides (front ++ back) (.reference m front :: segments)
  | text {t : Token} {tokens : List Token} {segments : List Segment}
    (plain : ¬ Opens (t :: tokens)) (rest : Divides tokens segments) :
    Divides (t :: tokens) (.text t :: segments)

/-- Whether a **reference is broken**: a percent sign stands directly before an opening brace, and
the tokens of no reference begin there. -/
def Broken (tokens : List Token) : Prop :=
  ∃ before rest, tokens = before ++ rest ∧ Opens rest ∧
    ∀ m front, MacroRef.Spells m front → ¬ front <+: rest

namespace Divides

variable {tokens tokens' : List Token} {segments segments' : List Segment}

/-- There is **one division.** -/
theorem unique (division : Divides tokens segments) (division' : Divides tokens segments') :
    segments = segments' := by
  induction division generalizing segments' with
  | nil =>
    generalize none : ([] : List Token) = tokens at division'
    cases division' with
    | nil => rfl
    | reference spells => cases spells <;> cases none
    | text => cases none
  | @reference m front back segments spells _ ih =>
    generalize same : front ++ back = all at division'
    cases division' with
    | nil => exact (same ▸ spells.opens back : Opens []).elim
    | reference spells' rest' =>
      obtain ⟨rfl, rfl, rfl⟩ := spells.unique spells' same
      rw [ih rest']
    | text plain' => exact absurd (same ▸ spells.opens back) plain'
  | @text t tokens segments plain _ ih =>
    generalize same : t :: tokens = all at division'
    cases division' with
    | nil => cases same
    | reference spells' => exact absurd (same ▸ spells'.opens _) plain
    | text _ rest' =>
      cases same
      rw [ih rest']

/-- Divisions one behind the other, with no percent sign and brace across the border. -/
theorem append (division : Divides tokens segments) (division' : Divides tokens' segments')
    (border : ∀ t ∈ tokens'.head?, t.kind ≠ .punct .curlyOpen) :
    Divides (tokens ++ tokens') (segments ++ segments') := by
  induction division with
  | nil => exact division'
  | reference spells _ ih =>
    rw [List.append_assoc]
    exact .reference spells ih
  | text plain _ ih => exact .text (MacroRef.not_opens_append plain border) ih

/-- A division of all tokens is none of broken ones.  A token at which a reference begins is the
first of a segment that spells a whole reference. -/
theorem not_broken (division : Divides tokens segments) : ¬ Broken tokens := by
  induction division with
  | nil =>
    rintro ⟨before, rest, same, opens, -⟩
    obtain ⟨-, rfl⟩ := List.append_eq_nil_iff.mp same.symm
    exact opens
  | @reference m front back segments spells _ ih =>
    rintro ⟨before, rest, same, opens, broken⟩
    rcases List.append_eq_append_iff.mp same with ⟨between, rfl, rfl⟩ | ⟨between, rfl, rfl⟩
    · exact ih ⟨between, rest, rfl, opens, broken⟩
    · -- the broken reference would start inside this one
      cases before with
      | nil => exact broken m between spells (List.prefix_append _ _)
      | cons first before =>
        cases between with
        | nil => exact ih ⟨[], back, rfl, opens, broken⟩
        | cons t between =>
          exact spells.percent_notMem_tail t (by simp) opens.percent
  | @text t tokens segments plain _ ih =>
    rintro ⟨before, rest, same, opens, broken⟩
    cases before with
    | nil => exact plain (same ▸ opens)
    | cons first before =>
      cases same
      exact ih ⟨before, rest, rfl, opens, broken⟩

end Divides

/-- Tokens have a **division unless a reference is broken.**  By induction on how many there are.  A
reference that begins and is not broken has tokens, which are one segment. -/
theorem exists_divides_iff (tokens : List Token) :
    (∃ segments, Divides tokens segments) ↔ ¬ Broken tokens := by
  refine ⟨fun ⟨segments, division⟩ => division.not_broken, fun whole => ?_⟩
  induction counted : tokens.length using Nat.strong_induction_on generalizing tokens with
  | _ n ih =>
    have later {front back : List Token} (same : tokens = front ++ back) : ¬ Broken back := by
      rintro ⟨before, rest, rfl, broken⟩
      exact whole ⟨front ++ before, rest, by rw [same, List.append_assoc], broken⟩
    by_cases opens : Opens tokens
    · obtain ⟨m, front, spells, back, same⟩ :
          ∃ m front, MacroRef.Spells m front ∧ front <+: tokens := by
        by_contra none
        push Not at none
        exact whole ⟨[], tokens, rfl, opens, none⟩
      have shorter : back.length < n := by
        rw [← counted, ← same, List.length_append]
        cases spells <;> simp
      obtain ⟨segments, division⟩ := ih back.length shorter back (later same.symm) rfl
      exact ⟨_, same ▸ Divides.reference spells division⟩
    · cases tokens with
      | nil => exact ⟨[], .nil⟩
      | cons t tokens =>
        have split : t :: tokens = [t] ++ tokens := rfl
        obtain ⟨segments, division⟩ :=
          ih tokens.length (counted ▸ Nat.lt_succ_self _) tokens (later split) rfl
        exact ⟨_, .text opens division⟩

/-! ### Reading

The reader finds the division as it goes.  It fails where the division does not go on, and otherwise
pushes segment after segment, so that its value is what pushing the segments of the division
gives. -/

/-- The stretches of a window are those of the division of its tokens. -/
theorem Cut.exists_divides {w : Window} {stretches : List Stretch} (cut : Cut w stretches) :
    ∃ segments, Divides w.tokens segments ∧ stretches = Segment.stretches segments := by
  induction cut with
  | nil => exact ⟨[], .nil, rfl⟩
  | @reference w rest m stretches starts read _ ih =>
    obtain ⟨segments, division, rfl⟩ := ih
    obtain ⟨front, spells, tokens, -⟩ :=
      (MacroRef.read_eq_ok_iff ((MacroRef.startsMacro_iff w).mp starts)).mp read
    exact ⟨_, tokens ▸ Divides.reference spells division, rfl⟩
  | @token t tokens closing stretches plain _ ih =>
    obtain ⟨segments, division, rfl⟩ := ih
    have notOpens : ¬ Opens (t :: tokens) := by
      rw [← MacroRef.startsMacro_iff ⟨t :: tokens, closing⟩, plain]
      exact Bool.false_ne_true
    exact ⟨_, .text notOpens division, rfl⟩

namespace ExpandableString

variable {tokens : List Token} {segments : List Segment}

/-- Segments are pushed as the stretches they make. -/
theorem pushAll_segments (s : ExpandableString) (segments : List Segment) :
    s.pushAll (segments.map Segment.part) =
      s.pushAll ((Segment.stretches segments).map Stretch.part) := by
  induction segments generalizing s with
  | nil => rfl
  | cons segment segments ih =>
    cases segment with
    | reference m tokens => exact ih (s.pushMacro m)
    | text t => exact (ih (s.pushLiteral t.value)).trans (pushAll_cons_text s t _)

/-- Tokens that have a division are read, segment by segment. -/
theorem readOnto_of_divides (division : Divides tokens segments) (s : ExpandableString)
    (closing : Token) :
    readOnto s ⟨tokens, closing⟩ = .ok (s.pushAll (segments.map Segment.part)) := by
  induction division generalizing s with
  | nil => rw [readOnto_eq]; rfl
  | @reference m front back segments spells _ ih =>
    have opens := spells.opens back
    have read : MacroRef.read ⟨front ++ back, closing⟩ = .ok (m, ⟨back, closing⟩) :=
      (MacroRef.read_eq_ok_iff opens).mpr ⟨front, spells, rfl, rfl⟩
    rw [readOnto_eq, if_pos ((MacroRef.startsMacro_iff _).mpr opens), read]
    exact ih (s.pushMacro m)
  | @text t tokens segments plain _ ih =>
    rw [readOnto_eq, if_neg (mt (MacroRef.startsMacro_iff _).mp plain)]
    exact ih (s.pushLiteral t.value)

/-- What a window is read to behind a string. -/
theorem readOnto_eq_ok_iff {s r : ExpandableString} {w : Window} :
    readOnto s w = .ok r ↔ ∃ segments, Divides w.tokens segments ∧
      r = s.pushAll (segments.map Segment.part) := by
  constructor
  · intro read
    obtain ⟨stretches, cut, rfl⟩ := readOnto_exists_cut read
    obtain ⟨segments, division, rfl⟩ := cut.exists_divides
    exact ⟨segments, division, (pushAll_segments s segments).symm⟩
  · rintro ⟨segments, division, rfl⟩
    exact readOnto_of_divides division s w.closing

/-- What a **window is read** to. -/
theorem read_eq_ok_iff {w : Window} {s : ExpandableString} :
    ExpandableString.read w = .ok s ↔ ∃ segments, Divides w.tokens segments ∧
      s = empty.pushAll (segments.map Segment.part) := readOnto_eq_ok_iff

/-- A window is **not read when a reference is broken.** -/
theorem read_eq_error_iff {w : Window} :
    (∃ e, ExpandableString.read w = .error e) ↔ Broken w.tokens := by
  rw [← not_iff_not, ← exists_divides_iff]
  cases read : ExpandableString.read w with
  | error e =>
    refine ⟨fun none => absurd ⟨e, rfl⟩ none, ?_⟩
    rintro ⟨segments, division⟩
    rw [read_eq_ok_iff.mpr ⟨segments, division, rfl⟩] at read
    cases read
  | ok s =>
    obtain ⟨segments, division, -⟩ := read_eq_ok_iff.mp read
    exact ⟨fun _ => ⟨segments, division⟩, fun _ ⟨_, failed⟩ => nomatch failed⟩

/-- The written form of a string that is read is the text of its window. -/
theorem render_of_divides (division : Divides tokens segments)
    (holds : ∀ t ∈ tokens, ∃ style : Grammar.Style, style.Holds t) :
    ((Segment.stretches segments).flatMap fun stretch => stretch.part.render.toList) =
      tokens.flatMap fun t => t.value.toList := by
  induction division with
  | nil => rfl
  | @reference m front back segments spells _ ih =>
    obtain ⟨inFront, behind⟩ := List.forall_mem_append.mp holds
    rw [List.flatMap_append, ← ih behind, ← spells.render inFront]
    rfl
  | @text t tokens segments plain _ ih =>
    rw [Segment.stretches, Segment.render_cons, ih (List.forall_mem_cons.mp holds).2,
      List.flatMap_cons]

/-- The **strings that are read from the text of an argument.**  Nothing of the text is lost: the
written form of the string is the text of the window, its references are those of the window in
order, and its literal parts are the values of the tokens between them.  And a window is refused
just when a reference is broken in it. -/
theorem read_of_argument {label text : String} {tokens : List Token}
    (tokenized : tokenize label text = .ok tokens) {before body after : List Token}
    {start stop : Token} (split : tokens = before ++ start :: (body ++ stop :: after))
    (startKind : start.kind = .argumentStart) (stopKind : stop.kind = .argumentStop)
    (inside : ∀ t ∈ body, t.kind ≠ .argumentStop) {value : List Token} (within : value <:+: body)
    (closing : Token) :
    (∀ s, ExpandableString.read ⟨value, closing⟩ = .ok s →
      s.render = Window.text ⟨value, closing⟩ ∧
      ∃ segments, Divides value segments ∧ s.macros = segments.filterMap Segment.macro? ∧
        s.parts = (Segment.stretches segments).map Stretch.part) ∧
    ((∃ e, ExpandableString.read ⟨value, closing⟩ = .error e) ↔ Broken value) := by
  obtain ⟨entries, last, rfl, final, -, styles⟩ := exists_shapedEntries tokenized
  obtain ⟨d, listed, a, member, rfl, rfl, rfl⟩ :=
    exists_argument_of_split final split startKind stopKind inside
  obtain ⟨style, writes⟩ := styles d listed a member
  have holds : ∀ t ∈ value, ∃ style : Grammar.Style, style.Holds t :=
    fun t inValue => ⟨style, writes.holds t (within.subset inValue)⟩
  refine ⟨fun s read => ?_, read_eq_error_iff⟩
  obtain ⟨segments, division, same⟩ := read_eq_ok_iff.mp read
  have solid : Window.Solid ⟨value, closing⟩ := by
    intro t member
    obtain ⟨style, shape⟩ := holds t member
    exact shape.1
  have parts : s.parts = (Segment.stretches segments).map Stretch.part := by
    obtain ⟨stretches, cut, parts⟩ := exists_cut solid read
    obtain ⟨segments', division', rfl⟩ := cut.exists_divides
    rw [parts, division.unique division']
  refine ⟨?_, segments, division, ?_, parts⟩
  · rw [render, parts, List.flatMap_map, render_of_divides division holds]
    rfl
  · rw [macros, parts, Segment.macros_stretches]

open Lexer (token)

/-- A text with the member of a collection, and its beginning, in which the reference is broken. -/
theorem read_of_argument_member :
    ∃ (before body after value : List Token) (start stop : Token) (segments : List Segment),
      tokenize "" "SecAction \"msg:a%\x7btx.b\x7d\"" =
        .ok (before ++ start :: (body ++ stop :: after)) ∧
      value <:+: body ∧
      ExpandableString.read ⟨value, stop⟩ = .ok ⟨[.literal "a", .reference ⟨some "tx", "b"⟩]⟩ ∧
      Divides value segments ∧ segments.filterMap Segment.macro? = [⟨some "tx", "b"⟩] ∧
      Broken (value.take 5) := by
  let value : List Token := [token .word "a" ⟨none, 1, 16⟩,
    token (.punct .percent) "%" ⟨none, 1, 17⟩, token (.punct .curlyOpen) "\x7b" ⟨none, 1, 18⟩,
    token .word "tx" ⟨none, 1, 19⟩, token (.punct .dot) "." ⟨none, 1, 21⟩,
    token .word "b" ⟨none, 1, 22⟩, token (.punct .curlyClose) "\x7d" ⟨none, 1, 23⟩]
  let body : List Token :=
    token .word "msg" ⟨none, 1, 12⟩ :: token (.punct .colon) ":" ⟨none, 1, 15⟩ :: value
  let start : Token := token .argumentStart "\"" ⟨none, 1, 11⟩
  let stop : Token := token .argumentStop "\"" ⟨none, 1, 24⟩
  have tokenized : tokenize "" "SecAction \"msg:a%\x7btx.b\x7d\"" =
      .ok ([token .directive "SecAction" ⟨none, 1, 1⟩] ++
        start :: (body ++ stop :: [token .endOfInput "" ⟨none, 1, 25⟩])) := by
    decide +kernel
  have within : value <:+: body := ⟨[_, _], [], rfl⟩
  have front : value.take 5 <:+: body := ⟨[_, _], [_, _], rfl⟩
  have read : ExpandableString.read ⟨value, stop⟩ =
      .ok ⟨[.literal "a", .reference ⟨some "tx", "b"⟩]⟩ := by
    decide +kernel
  have failed : ExpandableString.read ⟨value.take 5, stop⟩ =
      .error ⟨.unclosedMacro, ⟨none, 1, 17⟩⟩ := by
    decide +kernel
  obtain ⟨accepted, -⟩ := read_of_argument tokenized rfl rfl rfl (by decide) within stop
  obtain ⟨-, refused⟩ := read_of_argument tokenized rfl rfl rfl (by decide) front stop
  obtain ⟨-, segments, division, macros, -⟩ := accepted _ read
  exact ⟨_, body, _, value, start, stop, segments, tokenized, within, read, division, macros.symm,
    refused.mp ⟨_, failed⟩⟩

end ExpandableString

end WafRules
