import Mathlib.Data.Prod.Lex
import WafRules.Proofs.Grammar.Shape
import WafRules.Proofs.SourceOrder.Readers

/-!
# Source order

Going through the tree of a text in the order of its places means going through the text from its
start to its end: the places that the nodes record never go back, and never repeat.

A text is laid out in its tokens, so a token that takes at least one character of it stands
strictly before all later ones.  The marks of an argument without quotes take none, and the first
word of such an argument stands where its start mark stands.  But no node records the place of a
start mark, and the place of a stop mark is recorded only for an operator without tokens, which
quotes alone can surround.

## Main Definitions

* `Position.key` — the line and the column, ordered by the line first.
* `Position.Within` — the places of the characters of a text.
* `Token.TakesText` — tokens that take a character of the text.
* `Tree.positions` — the places of a tree, in its order.

## Main Statements

* `Position.key_lt_advance` — a text that is not empty leads to a later place.
* `Grammar.Tiles.pairwise_key` — tokens that take text stand before the later ones.
* `Position.within_advance` — where a character of a text stands.
* `Document.parse_positions` — the places of a document are in source order.
-/

namespace WafRules

/-! ### The order of places

Places are compared by their line and then by their column.  Every character leads to a later one,
so a place behind a stretch of text is never before its start, and later if the stretch has a
character in it. -/

namespace Position

/-- The line and the column of a place, ordered by the line first. -/
def key (p : Position) : ℕ ×ₗ ℕ := toLex (p.line, p.column)

theorem key_lt_next (p : Position) (c : Char) : p.key < (p.next c).key := by
  unfold next
  split
  · exact Prod.Lex.toLex_lt_toLex.mpr (.inl (Nat.lt_succ_self _))
  · exact Prod.Lex.toLex_lt_toLex.mpr (.inr ⟨rfl, Nat.lt_succ_self _⟩)

theorem key_le_advance (p : Position) (cs : List Char) : p.key ≤ (p.advance cs).key := by
  induction cs generalizing p with
  | nil => exact le_rfl
  | cons c cs ih => exact (p.key_lt_next c).le.trans (ih (p.next c))

/-- A **text that is not empty leads to a later place.** -/
theorem key_lt_advance (p : Position) {cs : List Char} (nonempty : cs ≠ []) :
    p.key < (p.advance cs).key := by
  obtain ⟨c, rest, rfl⟩ := List.exists_cons_of_ne_nil nonempty
  exact (p.key_lt_next c).trans_le ((p.next c).key_le_advance rest)

end Position

/-! ### Tokens in order

Of two tokens of a text the first one ends before the second one begins.  It also begins before it,
unless it takes no text at all, and so the tokens that take none are those whose places might
repeat. -/

/-- Whether a token takes a character of the text: all do but the end mark and the marks of an
argument without quotes. -/
def Token.TakesText (t : Token) : Prop :=
  match t.kind with
  | .endOfInput => False
  | .argumentStart | .argumentStop => t.value ≠ ""
  | .commentStart | .comment | .directive | .word | .blanks | .punct _ => True

theorem Token.takesText_of_isBody {t : Token} (inside : t.kind.IsBody) : t.TakesText := by
  unfold TakesText
  cases kind : t.kind <;> rw [kind] at inside <;> trivial

namespace Grammar

theorem Spells.ne_nil {t : Token} {taken rest : List Char} (spells : Spells t taken rest)
    (takes : t.TakesText) : taken ≠ [] := by
  unfold Spells at spells
  unfold Token.TakesText at takes
  rintro rfl
  cases kind : t.kind <;> simp only [kind] at spells takes
  case commentStart => cases spells
  case comment => exact spells.1 rfl
  case directive => exact spells.1 rfl
  case argumentStart => exact takes (String.toList_eq_nil_iff.mp spells.1)
  case argumentStop => exact takes (String.toList_eq_nil_iff.mp spells.1)
  case word => exact spells.1 rfl
  case blanks => exact spells.1 rfl
  case punct => cases spells.2

variable {after source : List Char} {p : Position} {tokens : List Token}

/-- No token of a text stands before its start. -/
theorem Tiles.key_le (tiles : Tiles after p tokens source) :
    ∀ t ∈ tokens, p.key ≤ t.position.key := by
  induction tiles with
  | nil p => simp
  | skip isGap others ih =>
    intro t member
    exact (Position.key_le_advance _ _).trans (ih t member)
  | take placed spells others ih =>
    refine List.forall_mem_cons.mpr ⟨by rw [placed], ?_⟩
    intro t member
    exact (Position.key_le_advance _ _).trans (ih t member)

/-- A token that **takes text stands before all later ones.** -/
theorem Tiles.pairwise_key (tiles : Tiles after p tokens source) :
    tokens.Pairwise fun t u => t.TakesText → t.position.key < u.position.key := by
  induction tiles with
  | nil p => exact .nil
  | skip isGap others ih => exact ih
  | take placed spells others ih =>
    refine .cons ?_ ih
    intro u member takes
    rw [placed]
    exact (Position.key_lt_advance _ (spells.ne_nil takes)).trans_le (others.key_le u member)

/-- A token that takes text stands at a character of the text. -/
theorem Tiles.exists_character (tiles : Tiles after p tokens source) {t : Token}
    (member : t ∈ tokens) (takes : t.TakesText) :
    ∃ before c rest, source = before ++ c :: rest ∧ t.position = p.advance before := by
  obtain ⟨front, back, rfl⟩ := List.append_of_mem member
  obtain ⟨before, taken, rest, rfl, -, place, spells, -⟩ := tiles.split
  obtain ⟨c, taken, rfl⟩ := List.exists_cons_of_ne_nil (spells.ne_nil takes)
  exact ⟨before, c, taken ++ rest, rfl, place⟩

end Grammar

/-! ### Lines and columns

That a place lies in the text is said by its line, as one of the fields between line feeds, and by
its column, as one of the characters of that field or the place behind the last of them. -/

namespace Position

/-- Reading on from a place leads to a line of the text from there on; the column is at most one
behind its last character. -/
theorem exists_field_advance (p : Position) (before after : List Char) :
    p.line ≤ (p.advance before).line ∧
      ∃ line, (Text.fields '\n' (before ++ after))[(p.advance before).line - p.line]? = some line ∧
        (p.advance before).column ≤
          (if (p.advance before).line = p.line then p.column else 1) + line.length := by
  induction before generalizing p with
  | nil =>
    obtain ⟨first, others, fields⟩ := List.exists_cons_of_ne_nil (Text.fields_ne_nil '\n' after)
    refine ⟨le_rfl, first, ?_, ?_⟩
    · simp [fields]
    · simp
  | cons c before ih =>
    obtain ⟨below, line, found, bound⟩ := ih (p.next c)
    rw [advance_cons, List.cons_append, Text.fields]
    generalize ((p.next c).advance before) = q at *
    by_cases lineFeed : c = '\n'
    · subst lineFeed
      simp only [next, if_true] at below found bound
      refine ⟨by omega, line, ?_, ?_⟩
      · rw [if_pos rfl, show q.line - p.line = q.line - (p.line + 1) + 1 by omega]
        exact found
      · rw [if_neg (by omega : ¬ q.line = p.line)]
        split at bound <;> omega
    · obtain ⟨first, others, fields⟩ :=
        List.exists_cons_of_ne_nil (Text.fields_ne_nil '\n' (before ++ after))
      simp only [next, if_neg lineFeed] at below found bound
      rw [if_neg lineFeed, fields]
      rw [fields] at found
      refine ⟨below, ?_⟩
      -- On the line of `c` the field begins with it; on a later one the field is as it was.
      by_cases same : q.line = p.line
      · simp only [same, Nat.sub_self, List.getElem?_cons_zero, if_true] at found bound ⊢
        obtain rfl := Option.some.inj found
        refine ⟨c :: first, rfl, ?_⟩
        rw [List.length_cons]
        omega
      · obtain ⟨n, later⟩ : ∃ n, q.line - p.line = n + 1 := ⟨q.line - p.line - 1, by omega⟩
        rw [later] at found ⊢
        rw [if_neg same] at bound ⊢
        exact ⟨line, found, bound⟩

/-- Whether a place is that of a character of a text: the label is that of the text, and the line
and the column are those of a character, so the line is one of the lines of the text, and the
column at most one behind its last character. -/
structure Within (label text : String) (p : Position) : Prop where
  file : p.file = (start label).file
  character : ∃ before c after, text.toList = before ++ c :: after ∧
    p = (start label).advance before
  line_pos : 1 ≤ p.line
  column_pos : 1 ≤ p.column
  line : ∃ line, (Text.fields '\n' text.toList)[p.line - 1]? = some line ∧
    p.column ≤ line.length + 1

/-- The **place of a character of a text** is within it. -/
theorem within_advance {label text : String} {before after : List Char} {c : Char}
    (split : text.toList = before ++ c :: after) :
    ((start label).advance before).Within label text := by
  obtain ⟨linePos, line, found, bound⟩ := exists_field_advance (start label) before (c :: after)
  have columnPos : 1 ≤ ((start label).advance before).column := by
    rw [advance_start]
    exact Nat.le_add_right 1 _
  constructor
  case file => exact advance_file _ _
  case character => exact ⟨before, c, after, split, rfl⟩
  case line_pos => exact linePos
  case column_pos => exact columnPos
  case line =>
    refine ⟨line, by rw [split]; exact found, bound.trans ?_⟩
    show (if _ then 1 else 1) + line.length ≤ line.length + 1
    rw [ite_self, Nat.add_comm]

end Position

/-! ### Documents

The nodes of a tree record places of tokens that take text, in the order of the tokens.  The strict
order of those places is therefore that of the tokens. -/

/-- The places that the nodes of a tree record, in the order of the tree. -/
def Tree.positions (t : Tree) : List Position :=
  t.entries.toList.filterMap fun entry => entry.node.position?

theorem Tree.positions_ofDocument (d : Document) :
    (Tree.ofDocument d).positions = (Node.document d).positions := by
  rw [positions, Node.positions, ← map_node_ofDocument, List.filterMap_map]
  rfl

/-- Anchors take text.  Without quotes there is a token between the marks of an argument, so a stop
mark is an anchor only if it is a quote. -/
theorem EntryTokens.takesText_of_mem_anchors {entry : EntryTokens}
    (written : ∀ d, entry = .directive d → ∀ a ∈ d.arguments, ∃ style : Grammar.Style,
      style.Writes a) :
    ∀ t ∈ entry.anchors, t.TakesText := by
  intro t member
  cases entry with
  | comment c =>
    rw [List.mem_singleton.mp member, Token.TakesText, c.mark_kind]
    trivial
  | directive d =>
    rcases List.mem_cons.mp member with rfl | inside
    · rw [Token.TakesText, d.name_kind]
      trivial
    · obtain ⟨a, inDirective, anchor⟩ := List.mem_flatMap.mp inside
      unfold ArgumentTokens.anchors at anchor
      split at anchor
      · next empty =>
        obtain ⟨style, writes⟩ := written d rfl a inDirective
        rw [List.mem_singleton.mp anchor, Token.TakesText, a.stop_kind]
        intro nothing
        cases style with
        | bare => exact writes.bare rfl empty
        | quoted =>
          have quote := writes.stop
          rw [nothing] at quote
          cases quote
      · exact Token.takesText_of_isBody (a.body_kind t anchor)

namespace Document

/-- The places of a document are those of tokens that take text, in their order. -/
theorem exists_anchors {label text : String} {d : Document}
    (read : parse label text = .ok d) :
    ∃ tokens anchors : List Token, Grammar.Tiles [] (.start label) tokens text.toList ∧
      anchors.Sublist tokens ∧ (∀ t ∈ anchors, t.TakesText) ∧
      (Tree.ofDocument d).positions = anchors.map Token.position := by
  cases tokenized : tokenize label text with
  | error e =>
    rw [parse_of_lexError tokenized] at read
    cases read
  | ok tokens =>
    obtain ⟨layout, fits, source, same⟩ := tokenize_eq_ok_iff_layout.mp tokenized
    rw [same] at tokenized
    rw [parse_of_entryTokens tokenized] at read
    generalize listed : layout.entries (.start label) = entries at tokenized read
    have items : d.items = (readEntries entries).1 := by
      cases result : readEntries entries with
      | mk items failure =>
        cases failure with
        | some e => rw [result] at read; cases read
        | none => rw [result] at read; cases read; rfl
    -- The readers keep places in order among anchors; the tiling gives the anchors their order.
    have places := readEntries_positions entries
    rw [← items, ← Node.positions_document, ← Tree.positions_ofDocument] at places
    obtain ⟨anchors, among, positions⟩ := List.sublist_map_iff.mp places
    have inEntries : (entries.flatMap EntryTokens.anchors).Sublist (entryTokens entries) :=
      List.Sublist.flatMap_right _ fun entry _ => entry.anchors_sublist
    have tiles := Grammar.tiles_layoutSource (.start label) fits
    rw [source, listed] at tiles
    refine ⟨_, anchors, tiles, among.trans (inEntries.trans (List.sublist_append_left _ _)), ?_,
      positions⟩
    intro t member
    obtain ⟨entry, inText, anchor⟩ := List.mem_flatMap.mp (among.subset member)
    refine EntryTokens.takesText_of_mem_anchors ?_ t anchor
    rintro directive rfl a inDirective
    rw [← listed] at inText
    exact Grammar.exists_style_of_mem_entries fits inText inDirective

/-- The places of a document are in its text. -/
theorem positions_within {label text : String} {d : Document} (read : parse label text = .ok d) :
    ∀ p ∈ (Tree.ofDocument d).positions, p.Within label text := by
  obtain ⟨tokens, anchors, tiles, among, takeText, positions⟩ := exists_anchors read
  rw [positions]
  intro p member
  obtain ⟨t, anchor, rfl⟩ := List.mem_map.mp member
  obtain ⟨before, c, rest, split, place⟩ :=
    tiles.exists_character (among.subset anchor) (takeText t anchor)
  rw [place]
  exact Position.within_advance split

/-- The **places of a document are in source order**, and all of them are in the text. -/
theorem parse_positions {label text : String} {d : Document} (read : parse label text = .ok d) :
    (Tree.ofDocument d).positions.Pairwise (fun p q => p.key < q.key) ∧
      ∀ p ∈ (Tree.ofDocument d).positions, p.Within label text := by
  refine ⟨?_, positions_within read⟩
  obtain ⟨tokens, anchors, tiles, among, takeText, positions⟩ := exists_anchors read
  rw [positions]
  have ordered : anchors.Pairwise fun t u => t.position.key < u.position.key := by
    refine (tiles.pairwise_key.sublist among).imp_of_mem ?_
    intro t u member _ before
    exact before (takeText t member)
  exact List.pairwise_map.mpr ordered

/-- A comment and a rule with two selectors, an operator without tokens and a control option with
a target: the operator stands at its closing quote. -/
theorem parse_positions_target :
    ∃ d, parse "t" "#c\nSecRule ARGS|!ARGS:a \"\" \"id:1,ctl:ruleRemoveTargetById=2;ARGS\"" =
        .ok d ∧
      (Tree.ofDocument d).positions = [⟨some "t", 1, 1⟩, ⟨some "t", 2, 1⟩, ⟨some "t", 2, 9⟩,
        ⟨some "t", 2, 14⟩, ⟨some "t", 2, 23⟩, ⟨some "t", 2, 26⟩, ⟨some "t", 2, 31⟩,
        ⟨some "t", 2, 58⟩] ∧
      (Tree.ofDocument d).positions.Pairwise (fun p q => p.key < q.key) ∧
      ∀ p ∈ (Tree.ofDocument d).positions, p.Within "t"
        "#c\nSecRule ARGS|!ARGS:a \"\" \"id:1,ctl:ruleRemoveTargetById=2;ARGS\"" := by
  have read :
      parse "t" "#c\nSecRule ARGS|!ARGS:a \"\" \"id:1,ctl:ruleRemoveTargetById=2;ARGS\"" =
        .ok ⟨"t", [.comment ⟨"c", ⟨some "t", 1, 1⟩⟩, .directive ⟨.rule
          ⟨[⟨.add, .builtIn .args, none, ⟨some "t", 2, 9⟩⟩,
            ⟨.remove, .builtIn .args, some (.key "a"), ⟨some "t", 2, 14⟩⟩],
            ⟨.regex "", false, ⟨some "t", 2, 23⟩⟩,
            [⟨.number .id 1, ⟨some "t", 2, 26⟩⟩, ⟨.ctl (.ruleRemoveTargetById ⟨2, 2⟩
              ⟨.add, .builtIn .args, none, ⟨some "t", 2, 58⟩⟩), ⟨some "t", 2, 31⟩⟩]⟩,
          ⟨some "t", 2, 1⟩⟩]⟩ := by
    decide +kernel
  refine ⟨_, read, ?_, parse_positions read⟩
  rw [Tree.positions_ofDocument, Node.positions_document]
  simp [Item.toNode, Node.positions_comment, Node.positions_directive, Node.ofBody,
    Node.positions_action, Node.ofAction, CtlOption.target, Action.strings]

end Document

end WafRules
