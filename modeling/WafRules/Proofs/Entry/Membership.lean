import WafRules.Proofs.Entry

/-!
# Tokens among those of entries

The kind of a token says which part of an entry it is: a comment's text, a directive's name or a
mark of an argument.  The tokens between two marks of an argument, found anywhere among the
tokens of entries, are those of an argument of one of the entries.

## Main Statements

* `exists_comment_of_mem`, `exists_directive_of_mem`, `exists_body_of_mem` — comments, names and
  the insides of arguments among tokens.
* `exists_argument_of_split` — arguments among tokens.
-/

namespace WafRules

/-! ### The tokens of one entry

By its kind a token of an entry is the mark or the text of a comment, the name of a directive, or
part of an argument. -/

/-- The tokens of an argument by their kinds. -/
theorem ArgumentTokens.kind_of_mem {a : ArgumentTokens} {t : Token} (member : t ∈ a.toList) :
    t = a.start ∨ t.kind.IsBody ∨ t = a.stop := by
  rcases List.mem_cons.mp member with first | inside
  · exact .inl first
  · rcases List.mem_append.mp inside with word | last
    · exact .inr (.inl (a.body_kind t word))
    · exact .inr (.inr (List.mem_singleton.mp last))

/-- The only token of a directive that is a name is the one it begins with. -/
theorem DirectiveTokens.eq_name_of_mem {d : DirectiveTokens} {t : Token} (member : t ∈ d.toList)
    (kind : t.kind = .directive) : t = d.name := by
  rcases List.mem_cons.mp member with first | inside
  · exact first
  · obtain ⟨a, -, ofArgument⟩ := List.mem_flatMap.mp inside
    rcases a.kind_of_mem ofArgument with rfl | body | rfl
    · rw [a.start_kind] at kind
      cases kind
    · rw [kind] at body
      exact body.elim
    · rw [a.stop_kind] at kind
      cases kind

/-- No token of a directive is the text of a comment. -/
theorem DirectiveTokens.kind_ne_comment {d : DirectiveTokens} {t : Token}
    (member : t ∈ d.toList) : t.kind ≠ .comment := by
  intro kind
  rcases List.mem_cons.mp member with rfl | inside
  · rw [d.name_kind] at kind
    cases kind
  · obtain ⟨a, -, ofArgument⟩ := List.mem_flatMap.mp inside
    rcases a.kind_of_mem ofArgument with rfl | body | rfl
    · rw [a.start_kind] at kind
      cases kind
    · rw [kind] at body
      exact body.elim
    · rw [a.stop_kind] at kind
      cases kind

/-- The tokens of a comment by their kinds. -/
theorem CommentTokens.kind_of_mem {c : CommentTokens} {t : Token} (member : t ∈ c.toList) :
    t.kind = .commentStart ∨ t.kind = .comment ∧ c.text = some t := by
  rcases List.mem_cons.mp member with rfl | text
  · exact .inl c.mark_kind
  · have found := Option.mem_toList.mp text
    exact .inr ⟨c.text_kind t found, found⟩

/-- No token of an entry is an end mark. -/
theorem EntryTokens.kind_ne_endOfInput {entry : EntryTokens} {t : Token}
    (member : t ∈ entry.toList) : t.kind ≠ .endOfInput := by
  intro kind
  cases entry with
  | comment c =>
    rcases c.kind_of_mem member with mark | ⟨text, -⟩
    · rw [mark] at kind
      cases kind
    · rw [text] at kind
      cases kind
  | directive d =>
    rcases List.mem_cons.mp member with rfl | inside
    · rw [d.name_kind] at kind
      cases kind
    · obtain ⟨a, -, ofArgument⟩ := List.mem_flatMap.mp inside
      rcases a.kind_of_mem ofArgument with rfl | body | rfl
      · rw [a.start_kind] at kind
        cases kind
      · rw [kind] at body
        exact body
      · rw [a.stop_kind] at kind
        cases kind

/-! ### Membership

So a token of a stream that is known by its kind belongs to an entry that is known, too. -/

variable {entries : List EntryTokens} {last t : Token}

/-- The text of a comment among the tokens of entries. -/
theorem exists_comment_of_mem (ending : last.kind = .endOfInput)
    (member : t ∈ entryTokens entries ++ [last]) (kind : t.kind = .comment) :
    ∃ c, EntryTokens.comment c ∈ entries ∧ c.text = some t := by
  rcases List.mem_append.mp member with inEntry | isLast
  · obtain ⟨entry, listed, inside⟩ := List.mem_flatMap.mp inEntry
    cases entry with
    | comment c =>
      rcases c.kind_of_mem inside with mark | ⟨-, text⟩
      · rw [mark] at kind
        cases kind
      · exact ⟨c, listed, text⟩
    | directive d => exact absurd kind (d.kind_ne_comment inside)
  · rw [List.mem_singleton.mp isLast, ending] at kind
    cases kind

/-- A name among the tokens of entries. -/
theorem exists_directive_of_mem (ending : last.kind = .endOfInput)
    (member : t ∈ entryTokens entries ++ [last]) (kind : t.kind = .directive) :
    ∃ d, EntryTokens.directive d ∈ entries ∧ t = d.name := by
  rcases List.mem_append.mp member with inEntry | isLast
  · obtain ⟨entry, listed, inside⟩ := List.mem_flatMap.mp inEntry
    cases entry with
    | comment c =>
      rcases c.kind_of_mem inside with mark | ⟨text, -⟩
      · rw [mark] at kind
        cases kind
      · rw [text] at kind
        cases kind
    | directive d => exact ⟨d, listed, d.eq_name_of_mem inside kind⟩
  · rw [List.mem_singleton.mp isLast, ending] at kind
    cases kind

/-- A token from inside an argument among the tokens of entries.  Marks, names and comments are of
other kinds, so there is one argument that it can be in. -/
theorem exists_body_of_mem (ending : last.kind = .endOfInput)
    (member : t ∈ entryTokens entries ++ [last]) (kind : t.kind.IsBody) :
    ∃ d, EntryTokens.directive d ∈ entries ∧ ∃ a ∈ d.arguments, t ∈ a.body := by
  rcases List.mem_append.mp member with inEntry | isLast
  · obtain ⟨entry, listed, inside⟩ := List.mem_flatMap.mp inEntry
    cases entry with
    | comment c =>
      rcases c.kind_of_mem inside with mark | ⟨text, -⟩
      · rw [mark] at kind
        exact kind.elim
      · rw [text] at kind
        exact kind.elim
    | directive d =>
      rcases List.mem_cons.mp inside with rfl | ofArguments
      · rw [d.name_kind] at kind
        exact kind.elim
      · obtain ⟨a, inDirective, ofArgument⟩ := List.mem_flatMap.mp ofArguments
        rcases List.mem_cons.mp ofArgument with rfl | behind
        · rw [a.start_kind] at kind
          exact kind.elim
        · rcases List.mem_append.mp behind with inBody | isStop
          · exact ⟨d, listed, a, inDirective, inBody⟩
          · rw [List.mem_singleton.mp isStop, a.stop_kind] at kind
            exact kind.elim
  · rw [List.mem_singleton.mp isLast, ending] at kind
    exact kind.elim

/-! ### Arguments

For the tokens between two marks more is needed, since the marks are given and not found.  As no
mark stands inside an argument, the two that enclose them belong to one argument. -/

/-- What is behind tokens of other kinds is found behind them. -/
theorem split_behind {first second before after : List Token} {t : Token}
    (split : first ++ second = before ++ t :: after) (absent : ∀ u ∈ first, u.kind ≠ t.kind) :
    ∃ rest, second = rest ++ t :: after := by
  rcases List.append_eq_append_iff.mp split with ⟨rest, -, found⟩ | ⟨rest, rfl, found⟩
  · exact ⟨rest, found⟩
  · cases rest with
    | nil => exact ⟨[], found.symm⟩
    | cons u rest =>
      obtain ⟨rfl, -⟩ := List.cons.inj found
      exact absurd rfl (absent t (by simp))

/-- The first token of a kind and those before it are found in only one way. -/
theorem split_first {first second before after : List Token} {t u : Token}
    (split : first ++ t :: second = before ++ u :: after) (same : t.kind = u.kind)
    (absentFirst : ∀ v ∈ first, v.kind ≠ u.kind) (absentBefore : ∀ v ∈ before, v.kind ≠ u.kind) :
    first = before ∧ t = u := by
  induction first generalizing before with
  | nil =>
    cases before with
    | nil => exact ⟨rfl, (List.cons.inj split).1⟩
    | cons v before =>
      obtain ⟨rfl, -⟩ := List.cons.inj split
      exact absurd same (absentBefore t (by simp))
  | cons v first ih =>
    cases before with
    | nil =>
      obtain ⟨rfl, -⟩ := List.cons.inj split
      exact absurd rfl (absentFirst v (by simp))
    | cons w before =>
      obtain ⟨rfl, rest⟩ := List.cons.inj split
      obtain ⟨rfl, found⟩ := ih rest (fun x member => absentFirst x (by simp [member]))
        (fun x member => absentBefore x (by simp [member]))
      exact ⟨rfl, found⟩

/-- The tokens of an argument that are not its first one do not begin an argument. -/
theorem ArgumentTokens.kind_ne_argumentStart (a : ArgumentTokens) :
    ∀ t ∈ a.body ++ [a.stop], t.kind ≠ .argumentStart := by
  intro t member kind
  rcases List.mem_append.mp member with word | last
  · have body := a.body_kind t word
    rw [kind] at body
    exact body
  · rw [List.mem_singleton.mp last, a.stop_kind] at kind
    cases kind

/-- The tokens between the marks of an argument do not end it. -/
theorem ArgumentTokens.kind_ne_argumentStop (a : ArgumentTokens) :
    ∀ t ∈ a.body, t.kind ≠ .argumentStop := by
  intro t member kind
  have body := a.body_kind t member
  rw [kind] at body
  exact body

/-- A stretch of tokens from one mark of an argument to the other, among arguments in front of
tokens that begin none. -/
theorem exists_argument_of_flatMap {arguments : List ArgumentTokens}
    {rest before body after : List Token} {start stop : Token}
    (split : arguments.flatMap ArgumentTokens.toList ++ rest =
      before ++ start :: (body ++ stop :: after))
    (startKind : start.kind = .argumentStart) (stopKind : stop.kind = .argumentStop)
    (inside : ∀ t ∈ body, t.kind ≠ .argumentStop) :
    (∃ a ∈ arguments, a.start = start ∧ a.body = body ∧ a.stop = stop) ∨
      ∃ earlier, rest = earlier ++ start :: (body ++ stop :: after) := by
  induction arguments generalizing before with
  | nil => exact .inr ⟨before, split⟩
  | cons a arguments ih =>
    have tokens : a.start :: (a.body ++ a.stop ::
        (arguments.flatMap ArgumentTokens.toList ++ rest)) =
        before ++ start :: (body ++ stop :: after) := by
      rw [← split]
      simp [ArgumentTokens.toList]
    cases before with
    | nil =>
      obtain ⟨same, behind⟩ := List.cons.inj tokens
      obtain ⟨sameBody, sameStop⟩ := split_first behind (a.stop_kind.trans stopKind.symm)
        (by rw [stopKind]; exact a.kind_ne_argumentStop) (by rw [stopKind]; exact inside)
      exact .inl ⟨a, by simp, same, sameBody, sameStop⟩
    | cons first before =>
      obtain ⟨-, behind⟩ := List.cons.inj tokens
      have others : (a.body ++ [a.stop]) ++
          (arguments.flatMap ArgumentTokens.toList ++ rest) =
          before ++ start :: (body ++ stop :: after) := by
        rw [List.append_assoc]
        exact behind
      obtain ⟨earlier, later⟩ := split_behind others
        (by rw [startKind]; exact a.kind_ne_argumentStart)
      rcases ih later with ⟨found, member, same⟩ | elsewhere
      · exact .inl ⟨found, List.mem_cons_of_mem a member, same⟩
      · exact .inr elsewhere

/-- The **arguments among the tokens of entries.**  A stretch from one mark of an argument to the
first mark of its end is the tokens of an argument of one of the entries. -/
theorem exists_argument_of_split {before body after : List Token} {start stop : Token}
    (ending : last.kind = .endOfInput)
    (split : entryTokens entries ++ [last] = before ++ start :: (body ++ stop :: after))
    (startKind : start.kind = .argumentStart) (stopKind : stop.kind = .argumentStop)
    (inside : ∀ t ∈ body, t.kind ≠ .argumentStop) :
    ∃ d, EntryTokens.directive d ∈ entries ∧
      ∃ a ∈ d.arguments, a.start = start ∧ a.body = body ∧ a.stop = stop := by
  induction entries generalizing before with
  | nil =>
    have alone : [last] ++ [] = before ++ start :: (body ++ stop :: after) := split
    -- The mark of the end starts no argument.
    have other : ∀ t ∈ [last], t.kind ≠ start.kind := by
      intro t member kind
      rw [List.mem_singleton.mp member, ending, startKind] at kind
      cases kind
    obtain ⟨rest, none⟩ := split_behind alone other
    exact absurd none.symm (by simp)
  | cons entry entries ih =>
    rw [entryTokens_cons, List.append_assoc] at split
    cases entry with
    | comment c =>
      have absent : ∀ t ∈ c.toList, t.kind ≠ start.kind := by
        intro t member kind
        rw [startKind] at kind
        rcases c.kind_of_mem member with mark | ⟨text, -⟩
        · rw [mark] at kind
          cases kind
        · rw [text] at kind
          cases kind
      obtain ⟨rest, later⟩ := split_behind split absent
      obtain ⟨d, listed, found⟩ := ih later
      exact ⟨d, List.mem_cons_of_mem _ listed, found⟩
    | directive d =>
      have name : ∀ t ∈ [d.name], t.kind ≠ start.kind := by
        intro t member kind
        rw [List.mem_singleton.mp member, d.name_kind, startKind] at kind
        cases kind
      have tokens : [d.name] ++ (d.arguments.flatMap ArgumentTokens.toList ++
          (entryTokens entries ++ [last])) = before ++ start :: (body ++ stop :: after) := split
      obtain ⟨rest, behind⟩ := split_behind tokens name
      rcases exists_argument_of_flatMap behind startKind stopKind inside with found | ⟨rest, later⟩
      · exact ⟨d, by simp, found⟩
      · obtain ⟨other, listed, found⟩ := ih later
        exact ⟨other, List.mem_cons_of_mem _ listed, found⟩

end WafRules
