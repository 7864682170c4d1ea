import WafRules.Document.Reader

/-!
# Entries as stretches of tokens

The tokens before the end mark fall into entries.  A comment is a mark and at most one text; a
directive is a name and complete arguments, each between a start and a stop mark.  Reading an
entry from a window uses its own tokens and looks at nothing behind them, so a document is read
entry by entry, whatever follows and whatever closes the window.

The kinds of the tokens are part of the types, and what an entry reads to is a function of the
entry alone (`EntryTokens.read`).

The readers of entries look one token ahead: arguments are read as long as a start mark follows, and
a comment takes a text if one follows its mark.  So the equations below hold for tokens that are
followed by the beginning of an entry or by nothing (`StartsEntries`), which entries are.

## Main Definitions

* `ArgumentTokens`, `CommentTokens`, `DirectiveTokens`, `EntryTokens` — entries with their tokens.
* `EntryTokens.read` — the item of an entry.
* `readEntries` — the items of entries up to the first error.

## Main Statements

* `Item.read_entryTokens` — the item of a window that begins with an entry.
* `Document.readItems_entryTokens` — the items of a window that begins with entries.
* `Document.readTokens_entryTokens` — the items of a token stream.
-/

namespace WafRules

/-! ### Stretches of tokens

The tokens of entries as data.  Since a mark is never a body token, the first stop mark behind a
start is the one that belongs to it. -/

/-- Whether tokens of the kind stand inside arguments. -/
def Token.Kind.IsBody : Token.Kind → Prop
  | word | blanks | punct _ => True
  | endOfInput | commentStart | comment | directive | argumentStart | argumentStop => False

/-- Whether a token of the kind begins an entry. -/
def Token.Kind.StartsEntry : Token.Kind → Prop
  | commentStart | directive => True
  | endOfInput | comment | argumentStart | argumentStop | word | blanks | punct _ => False

/-- The tokens of an argument with its marks. -/
structure ArgumentTokens where
  start : Token
  body : List Token
  stop : Token
  start_kind : start.kind = .argumentStart
  stop_kind : stop.kind = .argumentStop
  body_kind : ∀ t ∈ body, t.kind.IsBody

/-- The tokens of a comment. -/
structure CommentTokens where
  mark : Token
  text : Option Token
  mark_kind : mark.kind = .commentStart
  text_kind : ∀ t, text = some t → t.kind = .comment

/-- The tokens of a directive. -/
structure DirectiveTokens where
  name : Token
  arguments : List ArgumentTokens
  name_kind : name.kind = .directive

/-- The tokens of an entry. -/
inductive EntryTokens
  | comment (c : CommentTokens)
  | directive (d : DirectiveTokens)

namespace ArgumentTokens

/-- The tokens of an argument in order. -/
def toList (a : ArgumentTokens) : List Token := a.start :: (a.body ++ [a.stop])

/-- The argument that a reader sees. -/
def argument (a : ArgumentTokens) : Argument := ⟨a.start.position, ⟨a.body, a.stop⟩⟩

/-- The stop mark is the first one. -/
theorem findIdx?_stop (a : ArgumentTokens) (rest : List Token) :
    (a.body ++ a.stop :: rest).findIdx? (·.isKind .argumentStop) = some a.body.length := by
  have others : ∀ t ∈ a.body, t.isKind .argumentStop = false := by
    intro t member
    have kind := a.body_kind t member
    cases found : t.kind <;> simp_all [Token.isKind, Token.Kind.IsBody]
  have absent : a.body.findIdx? (·.isKind .argumentStop) = none :=
    List.findIdx?_eq_none_iff.mpr others
  rw [List.findIdx?_append, absent, List.findIdx?_cons]
  simp [Token.isKind, a.stop_kind]

end ArgumentTokens

/-- The tokens of a comment in order. -/
def CommentTokens.toList (c : CommentTokens) : List Token := c.mark :: c.text.toList

/-- The tokens of a directive in order. -/
def DirectiveTokens.toList (d : DirectiveTokens) : List Token :=
  d.name :: d.arguments.flatMap ArgumentTokens.toList

namespace EntryTokens

/-- The tokens of an entry in order. -/
def toList : EntryTokens → List Token
  | comment c => c.toList
  | directive d => d.toList

/-- The token an entry begins with: the mark of a comment or the name of a directive. -/
def head : EntryTokens → Token
  | comment c => c.mark
  | directive d => d.name

end EntryTokens

/-- The tokens of entries in order. -/
def entryTokens (entries : List EntryTokens) : List Token := entries.flatMap EntryTokens.toList

@[simp]
theorem entryTokens_nil : entryTokens [] = [] := rfl

@[simp]
theorem entryTokens_cons (entry : EntryTokens) (entries : List EntryTokens) :
    entryTokens (entry :: entries) = entry.toList ++ entryTokens entries := rfl

/-- The tokens of entries **one behind the other**. -/
theorem entryTokens_append (first second : List EntryTokens) :
    entryTokens (first ++ second) = entryTokens first ++ entryTokens second :=
  List.flatMap_append

/-- Whether tokens are the beginning of an entry, or none. -/
def StartsEntries (tokens : List Token) : Prop :=
  ∀ t, tokens.head? = some t → t.kind.StartsEntry

/-- **No token** begins nothing else. -/
theorem startsEntries_nil : StartsEntries [] := by
  intro t head
  cases head

/-- In front of entries stands the **beginning of the first** of them. -/
theorem startsEntries_entryTokens (entries : List EntryTokens) (rest : List Token)
    (starts : StartsEntries rest) : StartsEntries (entryTokens entries ++ rest) := by
  cases entries with
  | nil => exact starts
  | cons entry entries =>
    intro t head
    cases entry with
    | comment c =>
      have same : c.mark = t := by
        simpa [EntryTokens.toList, CommentTokens.toList] using head
      rw [← same, c.mark_kind]
      trivial
    | directive d =>
      have same : d.name = t := by
        simpa [EntryTokens.toList, DirectiveTokens.toList] using head
      rw [← same, d.name_kind]
      trivial

/-- What begins an entry is no token of another kind. -/
theorem startsWith_of_startsEntries {tokens : List Token} {closing : Token} {kind : Token.Kind}
    (starts : StartsEntries tokens) (other : ¬ kind.StartsEntry) :
    Window.startsWith ⟨tokens, closing⟩ kind = false := by
  cases tokens with
  | nil => rfl
  | cons t tokens =>
    have different : t.kind ≠ kind := fun same => other (same ▸ starts t rfl)
    simpa [Window.startsWith, Token.isKind] using different

/-! ### Reading

First what an entry is read to, as a function of its tokens, and then that the readers, which work
on windows of all tokens, compute that function and leave what is behind the entry. -/

/-- The item of a comment. -/
def CommentTokens.read (c : CommentTokens) : Comment :=
  ⟨(c.text.map fun t => t.value).getD "", c.mark.position⟩

/-- The directive that a name and arguments make. -/
def DirectiveTokens.read (d : DirectiveTokens) : Except SyntaxError Directive :=
  match Directive.Keyword.ofName? d.name.value with
  | none => .error ⟨.unknownDirective d.name.value, d.name.position⟩
  | some keyword =>
    match Directive.Body.read? keyword (d.arguments.map ArgumentTokens.argument) with
    | some body => body.map fun body => ⟨body, d.name.position⟩
    | none =>
      .error (Directive.argumentCount keyword d.name.position
        (d.arguments.map ArgumentTokens.argument))

/-- The item of an entry. -/
def EntryTokens.read : EntryTokens → Except SyntaxError Item
  | comment c => .ok (.comment c.read)
  | directive d => d.read.map .directive

/-- The items of entries, and the error that ends them. -/
def readEntries : List EntryTokens → List Item × Option SyntaxError
  | [] => ([], none)
  | entry :: entries =>
    match entry.read with
    | .error e => ([], some e)
    | .ok item => (item :: (readEntries entries).1, (readEntries entries).2)

@[simp]
theorem readEntries_nil : readEntries [] = ([], none) := rfl

/-- An entry that **has an item** puts it in front. -/
theorem readEntries_cons_ok {entry : EntryTokens} {item : Item} (entries : List EntryTokens)
    (read : entry.read = .ok item) :
    readEntries (entry :: entries) =
      (item :: (readEntries entries).1, (readEntries entries).2) := by
  rw [readEntries, read]

/-- An entry that **has none** ends the reading. -/
theorem readEntries_cons_error {entry : EntryTokens} {e : SyntaxError}
    (entries : List EntryTokens) (read : entry.read = .error e) :
    readEntries (entry :: entries) = ([], some e) := by
  rw [readEntries, read]

/-- Entries are read up to the first that has no item. -/
theorem readEntries_append (first second : List EntryTokens) :
    readEntries (first ++ second) =
      match (readEntries first).2 with
      | some e => ((readEntries first).1, some e)
      | none => ((readEntries first).1 ++ (readEntries second).1, (readEntries second).2) := by
  induction first with
  | nil => rfl
  | cons entry first ih =>
    rw [List.cons_append]
    cases read : entry.read with
    | error e => rw [readEntries_cons_error _ read, readEntries_cons_error _ read]
    | ok item =>
      rw [readEntries_cons_ok _ read, readEntries_cons_ok _ read, ih]
      cases (readEntries first).2 <;> rfl

/-- Complete arguments are read one by one, up to a token that starts no argument. -/
theorem Argument.readOnto_argumentTokens (before : Array Argument)
    (arguments : List ArgumentTokens) (rest : List Token) (closing : Token)
    (starts : StartsEntries rest) :
    Argument.readOnto before ⟨arguments.flatMap ArgumentTokens.toList ++ rest, closing⟩ =
      .ok (before.toList ++ arguments.map ArgumentTokens.argument, ⟨rest, closing⟩) := by
  induction arguments generalizing before with
  | nil =>
    have none : Window.startsWith ⟨rest, closing⟩ .argumentStart = false :=
      startsWith_of_startsEntries starts (fun impossible => impossible)
    rw [List.flatMap_nil, List.nil_append, Argument.readOnto]
    simp [none]
  | cons a arguments ih =>
    have tokens : (a :: arguments).flatMap ArgumentTokens.toList ++ rest =
        a.start :: (a.body ++ a.stop ::
          (arguments.flatMap ArgumentTokens.toList ++ rest)) := by
      simp [ArgumentTokens.toList]
    rw [tokens, Argument.readOnto]
    simp only [Window.startsWith, List.head?_cons, Option.any_some, Token.isKind, a.start_kind,
      BEq.rfl, if_true, Window.drop, Window.index?, List.drop_succ_cons, List.drop_zero]
    have found := a.findIdx?_stop (arguments.flatMap ArgumentTokens.toList ++ rest)
    simp only [Token.isKind] at found
    simp only [found, Window.splitAt, Window.drop, List.take_left', List.drop_left']
    simp only [List.drop_succ_cons, List.drop_zero]
    rw [ih]
    simp [ArgumentTokens.argument, Window.position, Window.first]

/-- A directive is read from its own tokens. -/
theorem Directive.read_directiveTokens (d : DirectiveTokens) (rest : List Token)
    (closing : Token) (starts : StartsEntries rest) :
    Directive.read ⟨d.toList ++ rest, closing⟩ =
      d.read.map fun directive => (directive, ⟨rest, closing⟩) := by
  have name : Window.expect ⟨d.toList ++ rest, closing⟩ .directive .directive =
      .ok (d.name, ⟨d.arguments.flatMap ArgumentTokens.toList ++ rest, closing⟩) := by
    simp [Window.expect, Window.startsWith, DirectiveTokens.toList, Token.isKind, d.name_kind,
      Window.first, Window.drop]
  have arguments : Argument.readAll
      ⟨d.arguments.flatMap ArgumentTokens.toList ++ rest, closing⟩ =
        .ok (d.arguments.map ArgumentTokens.argument, ⟨rest, closing⟩) := by
    rw [Argument.readAll, Argument.readOnto_argumentTokens _ _ _ _ starts]
    rfl
  simp only [Directive.read, name, bind, Except.bind, DirectiveTokens.read]
  cases Directive.Keyword.ofName? d.name.value with
  | none => rfl
  | some keyword =>
    simp only [arguments]
    cases Directive.Body.read? keyword (d.arguments.map ArgumentTokens.argument) with
    | none => rfl
    | some body => cases body <;> rfl

/-- A comment takes the text behind its mark if there is one. -/
theorem Comment.read_commentTokens (c : CommentTokens) (rest : List Token) (closing : Token)
    (starts : StartsEntries rest) :
    Comment.read c.mark.position ⟨c.text.toList ++ rest, closing⟩ = (c.read, ⟨rest, closing⟩) := by
  obtain ⟨mark, text, markKind, textKind⟩ := c
  cases text with
  | none =>
    have noText : Window.startsWith ⟨rest, closing⟩ .comment = false :=
      startsWith_of_startsEntries starts (fun impossible => impossible)
    rw [Option.toList_none, List.nil_append, Comment.read, noText]
    rfl
  | some text =>
    have isText : Window.startsWith ⟨text :: rest, closing⟩ .comment = true := by
      simp [Window.startsWith, Token.isKind, textKind text rfl]
    rw [Option.toList_some, List.singleton_append, Comment.read, isText]
    rfl

/-- An **entry is read from its own tokens.** -/
theorem Item.read_entryTokens (entry : EntryTokens) (rest : List Token) (closing : Token)
    (starts : StartsEntries rest) :
    Item.read ⟨entry.toList ++ rest, closing⟩ =
      entry.read.map fun item => (item, ⟨rest, closing⟩) := by
  cases entry with
  | comment c =>
    have isMark : Window.startsWith ⟨c.toList ++ rest, closing⟩ .commentStart = true := by
      simp [Window.startsWith, CommentTokens.toList, Token.isKind, c.mark_kind]
    have text : Comment.read c.mark.position ⟨c.text.toList ++ rest, closing⟩ =
        (c.read, ⟨rest, closing⟩) := Comment.read_commentTokens c rest closing starts
    rw [EntryTokens.toList, Item.read, isMark]
    simp only [if_true, Window.position, Window.first, Window.drop, CommentTokens.toList,
      List.cons_append, List.headD_cons, List.drop_succ_cons, List.drop_zero, text]
    rfl
  | directive d =>
    have noMark : Window.startsWith ⟨d.toList ++ rest, closing⟩ .commentStart = false := by
      simp [Window.startsWith, DirectiveTokens.toList, Token.isKind, d.name_kind]
    have isDirective : Window.startsWith ⟨d.toList ++ rest, closing⟩ .directive = true := by
      simp [Window.startsWith, DirectiveTokens.toList, Token.isKind, d.name_kind]
    simp only [Item.read, EntryTokens.toList, noMark, isDirective,
      Directive.read_directiveTokens d rest closing starts, EntryTokens.read]
    cases d.read <;> rfl

namespace Document

/-- The entries read so far, followed by more. -/
def Progress.addAll (progress : Progress) (items : List Item) : Progress :=
  items.foldl Progress.add progress

@[simp]
theorem Progress.addAll_nil (progress : Progress) : progress.addAll [] = progress := rfl

@[simp]
theorem Progress.addAll_cons (progress : Progress) (item : Item) (items : List Item) :
    progress.addAll (item :: items) = (progress.add item).addAll items := rfl

/-- Items are **added at the end**. -/
theorem Progress.addAll_items (progress : Progress) (items : List Item) :
    (progress.addAll items).items.toList = progress.items.toList ++ items := by
  induction items generalizing progress with
  | nil => simp
  | cons item items ih => rw [Progress.addAll_cons, ih]; simp [Progress.add]

/-- What the entries at the start of a window do not decide is read behind them.  Every item takes
the tokens of its entry off the front of the window, since what is behind them starts an entry
again. -/
theorem readItems_entryTokens_append (progress : Progress) (entries : List EntryTokens)
    (rest : List Token) (closing : Token) (starts : StartsEntries rest) :
    readItems progress ⟨entryTokens entries ++ rest, closing⟩ =
      match (readEntries entries).2 with
      | some e => (progress.addAll (readEntries entries).1, some e)
      | none => readItems (progress.addAll (readEntries entries).1) ⟨rest, closing⟩ := by
  induction entries generalizing progress with
  | nil => rfl
  | cons entry entries ih =>
    have startsNext := startsEntries_entryTokens entries rest starts
    have read := Item.read_entryTokens entry (entryTokens entries ++ rest) closing startsNext
    have notEmpty :
        Window.isEmpty ⟨entry.toList ++ (entryTokens entries ++ rest), closing⟩ = false := by
      cases entry <;> rfl
    rw [entryTokens_cons, List.append_assoc, readItems, notEmpty]
    cases result : entry.read with
    | error e =>
      rw [result] at read
      rw [readEntries_cons_error entries result]
      split
      · contradiction
      · split
        · next failed => rw [read] at failed; cases failed; rfl
        · next succeeded => rw [read] at succeeded; cases succeeded
    | ok item =>
      rw [result] at read
      rw [readEntries_cons_ok entries result]
      split
      · contradiction
      · split
        · next failed => rw [read] at failed; cases failed
        · next succeeded =>
          rw [read] at succeeded
          cases succeeded
          exact ih (progress.add item)

/-- The **items of a window that holds entries.** -/
theorem readItems_entryTokens (progress : Progress) (entries : List EntryTokens)
    (closing : Token) :
    readItems progress ⟨entryTokens entries, closing⟩ =
      (progress.addAll (readEntries entries).1, (readEntries entries).2) := by
  have whole := readItems_entryTokens_append progress entries [] closing startsEntries_nil
  rw [List.append_nil] at whole
  rw [whole]
  cases (readEntries entries).2 with
  | some e => rfl
  | none =>
    rw [readItems]
    rfl

/-- The **items of a token stream.** -/
theorem readTokens_entryTokens (entries : List EntryTokens) (last : Token) :
    readTokens (entryTokens entries ++ [last]) =
      (Progress.addAll ⟨#[], #[]⟩ (readEntries entries).1, (readEntries entries).2) := by
  rw [readTokens, List.getLast?_concat, List.dropLast_concat]
  exact readItems_entryTokens _ entries last

/-- The document with the given items, unless an error ends them. -/
def ofItems (label : String) : List Item × Option SyntaxError → Except ParseError Document
  | (items, none) => .ok ⟨label, items⟩
  | (_, some e) => .error (.structural e)

/-- A text that is malformed has no document. -/
theorem parse_of_lexError {label text : String} {e : LexError}
    (malformed : tokenize label text = .error e) : parse label text = .error (.lexical e) := by
  rw [parse, parseLogged, malformed]
  rfl

/-- The **document of a text with entries.** -/
theorem parse_of_entryTokens {label text : String} {entries : List EntryTokens} {last : Token}
    (tokenized : tokenize label text = .ok (entryTokens entries ++ [last])) :
    parse label text = ofItems label (readEntries entries) := by
  rw [parse, parseLogged, tokenized]
  dsimp only
  rw [readTokens_entryTokens]
  cases result : readEntries entries with
  | mk items failure =>
    cases failure with
    | some e => rfl
    | none =>
      have complete : (Progress.addAll ⟨#[], #[]⟩ items).items.toList = items :=
        Progress.addAll_items ⟨#[], #[]⟩ items
      show Except.ok (Document.mk label (Progress.addAll ⟨#[], #[]⟩ items).items.toList) = _
      rw [complete]
      rfl

end Document

end WafRules
