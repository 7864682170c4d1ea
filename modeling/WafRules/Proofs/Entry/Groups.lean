import Mathlib.Data.List.TakeWhile
import WafRules.Proofs.Entry.Membership

/-!
# The groups of a token stream

The tokens of an entry can be told from a token stream without reading it: an entry begins with
the mark of a comment or with the name of a directive, and everything up to the next such token, or
to the end mark, belongs to it.  The streams of texts are cut in this way into the tokens of their
entries.

## Main Definitions

* `groupOf` — the tokens up to the next entry or the end mark.
* `entryGroups` — the tokens that begin entries, each with its group.

## Main Statements

* `map_fst_entryGroups` — every token that begins an entry has one group.
* `entryGroups_entryTokens` — the groups of entries in order.
-/

namespace WafRules

instance : DecidablePred Token.Kind.StartsEntry
  | .commentStart | .directive => .isTrue trivial
  | .endOfInput | .comment | .argumentStart | .argumentStop | .word | .blanks | .punct _ =>
    .isFalse id

/-- Whether a token stands behind the one that its entry begins with. -/
def Token.IsInner (t : Token) : Prop := ¬ t.kind.StartsEntry ∧ t.kind ≠ .endOfInput

instance : DecidablePred Token.IsInner := fun t =>
  inferInstanceAs (Decidable (¬ t.kind.StartsEntry ∧ t.kind ≠ .endOfInput))

/-- The tokens up to the next entry or the end mark. -/
def groupOf (tokens : List Token) : List Token := tokens.takeWhile fun t => decide t.IsInner

/-- The tokens that begin entries, each with those behind it up to the next one or the end mark. -/
def entryGroups : List Token → List (Token × List Token)
  | [] => []
  | t :: rest =>
    if t.kind.StartsEntry then (t, groupOf rest) :: entryGroups rest else entryGroups rest

theorem entryGroups_cons_of_starts {t : Token} (starts : t.kind.StartsEntry) (rest : List Token) :
    entryGroups (t :: rest) = (t, groupOf rest) :: entryGroups rest := if_pos starts

theorem entryGroups_cons_of_not_starts {t : Token} (other : ¬ t.kind.StartsEntry)
    (rest : List Token) : entryGroups (t :: rest) = entryGroups rest := if_neg other

/-- The tokens that **begin entries** are those with a group. -/
theorem map_fst_entryGroups (tokens : List Token) :
    (entryGroups tokens).map Prod.fst = tokens.filter fun t => decide t.kind.StartsEntry := by
  induction tokens with
  | nil => rfl
  | cons t rest ih =>
    by_cases starts : t.kind.StartsEntry
    · rw [entryGroups_cons_of_starts starts, List.filter_cons_of_pos (by simpa using starts),
        List.map_cons, ih]
    · rw [entryGroups_cons_of_not_starts starts, ih,
        List.filter_cons_of_neg (by simpa using starts)]

/-- Inner tokens have no groups of their own. -/
theorem entryGroups_append_of_inner {front : List Token} (inner : ∀ t ∈ front, t.IsInner)
    (rest : List Token) : entryGroups (front ++ rest) = entryGroups rest := by
  induction front with
  | nil => rfl
  | cons t front ih =>
    obtain ⟨first, others⟩ := List.forall_mem_cons.mp inner
    rw [List.cons_append, entryGroups_cons_of_not_starts first.1, ih others]

/-- A group is over where the next entry begins, and at the end mark. -/
theorem groupOf_append {front rest : List Token} (inner : ∀ t ∈ front, t.IsInner)
    (ends : ∀ t, rest.head? = some t → ¬ t.IsInner) : groupOf (front ++ rest) = front := by
  have nothing : groupOf rest = [] := by
    cases rest with
    | nil => rfl
    | cons t rest => exact List.takeWhile_cons_of_neg (by simpa using ends t rfl)
  have passes : ∀ t ∈ front, decide t.IsInner = true :=
    fun t member => decide_eq_true (inner t member)
  rw [groupOf, List.takeWhile_append_of_pos passes]
  exact (congrArg (front ++ ·) nothing).trans (List.append_nil front)

/-- Words, blanks and punctuation stand inside arguments. -/
theorem Token.isInner_of_isBody {t : Token} (body : t.kind.IsBody) : t.IsInner := by
  unfold IsInner
  cases kind : t.kind with
  | word | blanks | punct _ => exact ⟨id, nofun⟩
  | endOfInput | commentStart | comment | directive | argumentStart | argumentStop =>
    rw [kind] at body
    exact body.elim

namespace EntryTokens

/-- The tokens of an entry behind the one it begins with. -/
def tail : EntryTokens → List Token
  | comment c => c.text.toList
  | directive d => d.arguments.flatMap ArgumentTokens.toList

theorem toList_eq (entry : EntryTokens) : entry.toList = entry.head :: entry.tail := by
  cases entry <;> rfl

theorem startsEntry_head (entry : EntryTokens) : entry.head.kind.StartsEntry := by
  cases entry with
  | comment c =>
    rw [head, c.mark_kind]
    trivial
  | directive d =>
    rw [head, d.name_kind]
    trivial

/-- No token of an argument begins an entry or ends the text. -/
theorem isInner_of_mem_argument {a : ArgumentTokens} {t : Token} (member : t ∈ a.toList) :
    t.IsInner := by
  rcases a.kind_of_mem member with rfl | body | rfl
  · rw [Token.IsInner, a.start_kind]
    decide
  · exact Token.isInner_of_isBody body
  · rw [Token.IsInner, a.stop_kind]
    decide

theorem isInner_of_mem_tail {entry : EntryTokens} {t : Token} (member : t ∈ entry.tail) :
    t.IsInner := by
  cases entry with
  | comment c =>
    rw [Token.IsInner, c.text_kind t (Option.mem_toList.mp member)]
    decide
  | directive d =>
    obtain ⟨a, -, ofArgument⟩ := List.mem_flatMap.mp member
    exact isInner_of_mem_argument ofArgument

end EntryTokens

/-- What stands behind an entry is not part of it. -/
theorem not_isInner_of_head? (entries : List EntryTokens) {last t : Token}
    (ending : last.kind = .endOfInput) (head : (entryTokens entries ++ [last]).head? = some t) :
    ¬ t.IsInner := by
  intro inner
  cases entries with
  | nil =>
    obtain rfl : last = t := Option.some.inj head
    exact inner.2 ending
  | cons entry entries =>
    rw [entryTokens_cons, entry.toList_eq] at head
    obtain rfl : entry.head = t := Option.some.inj head
    exact inner.1 entry.startsEntry_head

/-- The **group of an entry** is its tokens behind the first. -/
theorem groupOf_tail (entry : EntryTokens) (entries : List EntryTokens) {last : Token}
    (ending : last.kind = .endOfInput) :
    groupOf (entry.tail ++ (entryTokens entries ++ [last])) = entry.tail :=
  groupOf_append (fun _ member => EntryTokens.isInner_of_mem_tail member)
    fun _ head => not_isInner_of_head? entries ending head

/-- The **groups of a token stream** are those of its entries, in order. -/
theorem entryGroups_entryTokens (entries : List EntryTokens) {last : Token}
    (ending : last.kind = .endOfInput) :
    entryGroups (entryTokens entries ++ [last]) =
      entries.map fun entry => (entry.head, entry.tail) := by
  induction entries with
  | nil =>
    refine entryGroups_cons_of_not_starts ?_ []
    rw [ending]
    exact id
  | cons entry entries ih =>
    rw [entryTokens_cons, List.append_assoc, entry.toList_eq, List.cons_append,
      entryGroups_cons_of_starts entry.startsEntry_head, groupOf_tail entry entries ending,
      entryGroups_append_of_inner (fun _ member => EntryTokens.isInner_of_mem_tail member), ih,
      List.map_cons]

end WafRules
