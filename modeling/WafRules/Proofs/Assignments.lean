import WafRules.Proofs.Closings
import WafRules.Proofs.References

/-!
# Variables and what is assigned to them

The values of `setvar` and `expirevar` name a variable by a collection, a dot and a name, and an
equals sign stands between the variable and what is assigned to it.  Dots and equals signs are also
in references, where they divide nothing.  The search for the first one counts how many references
are open, while a string is read by references that hold no other ones; on tokens that can be read
the two agree, so the values are divided at the first dot and the first equals sign of the literal
text.

A value is divided before anything in it is read, so the statements come in two steps.  `Parts` with
`Sound` says how the tokens may be divided, without any reader; a mark that is searched for is found
where the parts have it, and so a division is the only one.  `Gives` says what the parts are read
to; once the mark is found, the reader of a value is the readers of its parts in sequence.

## Main Definitions

* `Free` — tokens that are read, without tokens of certain kinds in their literal text.
* `SetVar.Parts`, `ExpireVar.Parts` — how a value is divided.
* `SetVar.Parts.Gives`, `ExpireVar.Parts.Gives` — what the parts are read to.

## Main Statements

* `Free.index`, `Divides.free_of_index` — what is searched for is the first such token of the text.
* `SetVar.read_divided` — the values that are read, and their only division.
-/

namespace WafRules

open MacroRef (Opens)

/-! ### The search for a mark

The search counts open references: it goes deeper at a percent sign with a brace and comes back at
the closing brace.  A reference that can be read has no other one inside, so on such tokens the
count is never more than one, and what the search passes over is exactly the reference. -/

namespace Window

variable {kind : Token.Kind} {depth : Nat}

/-- The search goes **one reference deeper** where one opens. -/
theorem indexAtDepth?_opens {t u : Token} {rest : List Token} (opens : Opens [t, u]) :
    indexAtDepth? kind depth (t :: u :: rest) =
      (indexAtDepth? kind (depth + 1) rest).map (· + 2) := by
  rw [indexAtDepth?, if_pos]
  simp [opensMacro, Token.isKind, opens.1, opens.2]

/-- The search at a token that opens no reference. -/
theorem indexAtDepth?_cons {t : Token} {rest : List Token} (plain : ¬ Opens (t :: rest)) :
    indexAtDepth? kind depth (t :: rest) =
      if 0 < depth ∧ t.kind = .punct .curlyClose then
        (indexAtDepth? kind (depth - 1) rest).map (· + 1)
      else if depth = 0 ∧ t.kind = kind then some 0
      else (indexAtDepth? kind depth rest).map (· + 1) := by
  cases rest with
  | nil =>
    simp only [indexAtDepth?, Token.isKind, beq_iff_eq, Option.map_none]
    by_cases closes : 0 < depth ∧ t.kind = .punct .curlyClose
    · rw [if_pos closes, if_neg fun found => Nat.ne_of_gt closes.1 found.1]
    · rw [if_neg closes]
  | cons u rest =>
    have notOpens : opensMacro t u = false := by
      rw [Bool.eq_false_iff]
      intro opens
      have both : t.kind = .punct .percent ∧ u.kind = .punct .curlyOpen := by
        simpa [opensMacro, Token.isKind] using opens
      exact plain both
    simp only [indexAtDepth?, notOpens, Token.isKind, beq_iff_eq, Bool.false_eq_true, if_false]

/-- Inside a reference nothing is found before its closing brace. -/
theorem indexAtDepth?_inner {inner back : List Token}
    (valid : ∀ t ∈ inner, t.kind ≠ .punct .percent ∧ t.kind ≠ .punct .curlyClose) :
    indexAtDepth? kind 1 (inner ++ back) =
      (indexAtDepth? kind 1 back).map (· + inner.length) := by
  induction inner with
  | nil => simp
  | cons t inner ih =>
    obtain ⟨here, later⟩ := List.forall_mem_cons.mp valid
    rw [List.cons_append, indexAtDepth?_cons fun opens => here.1 opens.percent,
      if_neg fun closes => here.2 closes.2, if_neg fun found => Nat.one_ne_zero found.1, ih later,
      Option.map_map]
    rfl

/-- What is found is a token of the kind. -/
theorem exists_of_indexAtDepth? {tokens : List Token} {i : Nat}
    (found : indexAtDepth? kind depth tokens = some i) :
    ∃ front mark back, tokens = front ++ mark :: back ∧ front.length = i ∧ mark.kind = kind := by
  fun_induction indexAtDepth? kind depth tokens generalizing i with
  | case1 => cases found
  | case2 depth t here =>
    cases found
    exact ⟨[], t, [], rfl, rfl, by simpa [Token.isKind] using here.2⟩
  | case3 => cases found
  | case4 depth t u rest opens ih =>
    obtain ⟨j, found', rfl⟩ := Option.map_eq_some_iff.mp found
    obtain ⟨front, mark, back, rfl, rfl, isKind⟩ := ih found'
    exact ⟨t :: u :: front, mark, back, rfl, rfl, isKind⟩
  | case5 depth t u rest plain closes ih =>
    obtain ⟨j, found', rfl⟩ := Option.map_eq_some_iff.mp found
    obtain ⟨front, mark, back, same, rfl, isKind⟩ := ih found'
    exact ⟨t :: front, mark, back, congrArg (t :: ·) same, rfl, isKind⟩
  | case6 depth t u rest plain open' here =>
    cases found
    exact ⟨[], t, u :: rest, rfl, rfl, by simpa [Token.isKind] using here.2⟩
  | case7 depth t u rest plain open' notHere ih =>
    obtain ⟨j, found', rfl⟩ := Option.map_eq_some_iff.mp found
    obtain ⟨front, mark, back, same, rfl, isKind⟩ := ih found'
    exact ⟨t :: front, mark, back, congrArg (t :: ·) same, rfl, isKind⟩

end Window

/-! ### Marks of the literal text

Here the search meets the division of tokens into references and literal text.  Behind a stretch
whose literal text is free of a mark the search has found nothing, and the next such mark is what it
finds.

The division says nothing of what follows the stretch.  A percent sign at its end and a brace behind
it would be a reference that begins in one and ends in the other, which is why the lemmas ask for
the token behind to be no opening brace. -/

section Marks

variable {m : MacroRef} {kind : Token.Kind} {front back tokens : List Token}
  {segments : List Segment}

/-- The search goes over a reference. -/
theorem MacroRef.Spells.index (spells : m.Spells front) (back : List Token) :
    Window.indexAtDepth? kind 0 (front ++ back) =
      (Window.indexAtDepth? kind 0 back).map (· + front.length) := by
  obtain ⟨percent, brace, inner, close, rfl, opens, valid, closes⟩ :
      ∃ percent brace inner close, front = percent :: brace :: (inner ++ [close]) ∧
        Opens [percent, brace] ∧
        (∀ t ∈ inner, t.kind ≠ .punct .percent ∧ t.kind ≠ .punct .curlyClose) ∧
        close.kind = .punct .curlyClose := by
    cases spells with
    | @plain percent brace name close opens word closes =>
      exact ⟨percent, brace, [name], close, rfl, opens, by simp [word], closes⟩
    | @member percent brace name dot close key opens word isDot _ valid closes =>
      refine ⟨percent, brace, name :: dot :: key, close, rfl, opens, ?_, closes⟩
      simpa [word, isDot] using fun t member => ⟨(valid t member).2.1, (valid t member).2.2.2⟩
  have plain : ¬ Opens (close :: back) := by
    intro opens'
    cases closes.symm.trans opens'.percent
  rw [List.cons_append, List.cons_append, List.append_assoc, List.singleton_append,
    Window.indexAtDepth?_opens opens, Window.indexAtDepth?_inner valid,
    Window.indexAtDepth?_cons plain, if_pos ⟨Nat.one_pos, closes⟩, Option.map_map, Option.map_map]
  congr 1
  funext i
  simp only [Function.comp_apply, List.length_cons, List.length_append, List.length_nil]
  omega

/-- The search goes over tokens without such a mark in their literal text. -/
theorem Divides.index (division : Divides front segments)
    (free : ∀ t, Segment.text t ∈ segments → t.kind ≠ kind)
    (border : ∀ t ∈ back.head?, t.kind ≠ .punct .curlyOpen) :
    Window.indexAtDepth? kind 0 (front ++ back) =
      (Window.indexAtDepth? kind 0 back).map (· + front.length) := by
  induction division with
  | nil => simp
  | @reference m front rest segments spells _ ih =>
    rw [List.append_assoc, spells.index, ih fun t member => free t (List.mem_cons_of_mem _ member),
      Option.map_map]
    congr 1
    funext i
    simp only [Function.comp_apply, List.length_append]
    omega
  | @text t tokens segments plain _ ih =>
    rw [List.cons_append, Window.indexAtDepth?_cons (MacroRef.not_opens_append plain border),
      if_neg fun closes => Nat.lt_irrefl 0 closes.1,
      if_neg fun found => free t List.mem_cons_self found.2,
      ih fun t member => free t (List.mem_cons_of_mem _ member), Option.map_map]
    rfl

/-- A mark in the literal text is found, or one in front of it.  By induction on the division: a
reference is passed as a whole, and a token of the text is looked at. -/
theorem Divides.exists_index (division : Divides front segments) {t : Token}
    (member : Segment.text t ∈ segments) (isMark : t.kind = kind)
    (border : ∀ t ∈ back.head?, t.kind ≠ .punct .curlyOpen) :
    ∃ i < front.length, Window.indexAtDepth? kind 0 (front ++ back) = some i := by
  induction division with
  | nil => cases member
  | @reference m front rest segments spells _ ih =>
    obtain ⟨i, bound, found⟩ := ih (by simpa using member)
    refine ⟨i + front.length, ?_, ?_⟩
    · rw [List.length_append]
      omega
    · rw [List.append_assoc, spells.index, found]
      rfl
  | @text u tokens segments plain _ ih =>
    rw [List.cons_append, Window.indexAtDepth?_cons (MacroRef.not_opens_append plain border),
      if_neg fun closes => Nat.lt_irrefl 0 closes.1]
    by_cases here : u.kind = kind
    · rw [if_pos ⟨rfl, here⟩]
      exact ⟨0, Nat.succ_pos _, rfl⟩
    · have later : Segment.text t ∈ segments := by
        refine (List.mem_cons.mp member).resolve_left ?_
        rintro ⟨⟩
        exact here isMark
      obtain ⟨i, bound, found⟩ := ih later
      rw [if_neg fun both => here both.2, found]
      exact ⟨i + 1, Nat.succ_lt_succ bound, rfl⟩

/-- Whether tokens are **readable, and free** of tokens of certain kinds in their literal text. -/
def Free (kinds : List Token.Kind) (tokens : List Token) : Prop :=
  ∃ segments, Divides tokens segments ∧ ∀ t, Segment.text t ∈ segments → t.kind ∉ kinds

variable {kinds : List Token.Kind}

/-- Behind tokens that are free of it **a mark is the first one.** -/
theorem Free.index (free : Free kinds front) (mark : Token) (back : List Token)
    (among : mark.kind ∈ kinds) (notPercent : mark.kind ≠ .punct .percent)
    (notBrace : mark.kind ≠ .punct .curlyOpen) :
    Window.indexAtDepth? mark.kind 0 (front ++ mark :: back) = some front.length := by
  obtain ⟨segments, division, none⟩ := free
  have plain : ¬ Opens (mark :: back) := fun opens => notPercent opens.percent
  have border : ∀ t ∈ (mark :: back).head?, t.kind ≠ .punct .curlyOpen := by
    rintro _ ⟨⟩
    exact notBrace
  rw [division.index (fun t member same => none t member (same ▸ among)) border,
    Window.indexAtDepth?_cons plain, if_neg fun closes => Nat.lt_irrefl 0 closes.1,
    if_pos ⟨rfl, rfl⟩]
  exact congrArg some (Nat.zero_add _)

/-- In tokens that are free of it a mark is **not found at all.** -/
theorem Free.index_none (free : Free kinds tokens) (among : kind ∈ kinds) :
    Window.indexAtDepth? kind 0 tokens = none := by
  obtain ⟨segments, division, none⟩ := free
  have searched : Window.indexAtDepth? kind 0 (tokens ++ []) =
      (Window.indexAtDepth? kind 0 []).map (· + tokens.length) := division.index
    (fun t member same => none t member (same ▸ among)) fun t first => by cases first
  rwa [List.append_nil] at searched

/-- In front of the first mark the literal text is free of it. -/
theorem Divides.free_of_index (division : Divides front segments) (kind : Token.Kind)
    (back : List Token)
    (border : ∀ t ∈ back.head?, t.kind ≠ .punct .curlyOpen)
    (first : ∀ i, Window.indexAtDepth? kind 0 (front ++ back) = some i → front.length ≤ i) :
    ∀ t, Segment.text t ∈ segments → t.kind ≠ kind := by
  intro t member isMark
  obtain ⟨i, bound, found⟩ := division.exists_index member isMark border
  exact absurd (first i found) (Nat.not_le_of_lt bound)

/-- In front of the first equals sign there is none. -/
theorem noEquals_of_index {target back : List Token} {equals : Token}
    (isEquals : equals.kind = .punct .equals)
    (found : Window.indexAtDepth? (.punct .equals) 0 (target ++ equals :: back) =
      some target.length) :
    ∀ segments, Divides target segments →
      ∀ t, Segment.text t ∈ segments → t.kind ≠ .punct .equals := by
  intro segments division
  refine division.free_of_index _ (equals :: back) ?_ fun i first =>
    Nat.le_of_eq (Option.some.inj (found.symm.trans first))
  rintro _ ⟨⟩ brace
  cases isEquals.symm.trans brace

/-- Where no equals sign is found, **the literal text has none.** -/
theorem noEquals_of_index_none {target : List Token}
    (noEquals : Window.indexAtDepth? (.punct .equals) 0 target = none) :
    ∀ segments, Divides target segments →
      ∀ t, Segment.text t ∈ segments → t.kind ≠ .punct .equals := by
  intro segments division
  refine division.free_of_index _ [] (fun t first => by cases first) fun i first => ?_
  rw [List.append_nil, noEquals] at first
  cases first

end Marks

/-! ### Collections and names

The name of a variable is divided at its first dot.  That it has no equals sign outside references
is no condition of the reader for names; it comes from the reader in front of it, which has divided
the value there. -/

namespace ExpandableString

/-- Whether tokens are **read to a string** as the value of an action, whatever closes them. -/
def Reads (tokens : List Token) (s : ExpandableString) : Prop :=
  ∀ closing, readValue ⟨tokens, closing⟩ = .ok s

variable {tokens : List Token} {s : ExpandableString}

/-- The token that closes a window **plays no part** in what a text is read to. -/
theorem reads_iff (closing : Token) : readValue ⟨tokens, closing⟩ = .ok s ↔ Reads tokens s := by
  refine ⟨fun read closing' => ?_, fun reads => reads closing⟩
  have alike : Window.Alike .any ⟨tokens, closing⟩ ⟨tokens, closing'⟩ := ⟨rfl, trivial⟩
  obtain ⟨_, read', rfl⟩ := (readValue_agree alike).exists_ok read
  exact read'

/-- Tokens are read when they have a division. -/
theorem exists_reads_iff : (∃ s, Reads tokens s) ↔ ∃ segments, Divides tokens segments := by
  constructor
  · rintro ⟨s, reads⟩
    obtain ⟨raw, read, -⟩ := bind_eq_ok_iff.mp (reads ⟨⟨.endOfInput, ""⟩, default⟩)
    obtain ⟨segments, division, -⟩ := read_eq_ok_iff.mp read
    exact ⟨segments, division⟩
  · rintro ⟨segments, division⟩
    exact ⟨_, fun closing =>
      bind_eq_ok_iff.mpr ⟨_, read_eq_ok_iff.mpr ⟨segments, division, rfl⟩, rfl⟩⟩

end ExpandableString

open ExpandableString (Reads)

namespace Member

/-- A collection, a dot and a name. -/
structure Parts where
  collection : List Token
  dot : Token
  name : List Token

namespace Parts

/-- The tokens that parts stand for. -/
def tokens (p : Parts) : List Token := p.collection ++ p.dot :: p.name

/-- How the **name of a variable is divided**: at the first dot outside references, which comes
before the first equals sign. -/
structure Sound (p : Parts) : Prop where
  isDot : p.dot.kind = .punct .dot
  collection_ne_nil : p.collection ≠ []
  name_ne_nil : p.name ≠ []
  collection_free : Free [.punct .dot, .punct .equals] p.collection
  name_free : Free [.punct .equals] p.name

/-- What the parts are read to. -/
structure Gives (p : Parts) (m : Member) : Prop where
  collection : Reads p.collection m.collection
  name : Reads p.name m.name

variable {p : Parts}

/-- A name begins with its collection. -/
theorem Sound.head (sound : p.Sound) (behind : List Token) :
    (p.tokens ++ behind).head? = p.collection.head? := by
  obtain ⟨first, rest, same⟩ := List.exists_cons_of_ne_nil sound.collection_ne_nil
  rw [tokens, same]
  rfl

/-- The parts of a name are found again. -/
theorem Sound.index (sound : p.Sound) :
    Window.indexAtDepth? (.punct .dot) 0 p.tokens = some p.collection.length := by
  have found := sound.collection_free.index p.dot p.name
  rw [sound.isDot] at found
  exact found (by simp) nofun nofun

/-- A name has one division. -/
theorem Sound.unique {p' : Parts} (sound : p.Sound) (sound' : p'.Sound)
    (same : p.tokens = p'.tokens) : p = p' := by
  have lengths : p.collection.length = p'.collection.length := by
    have found := sound.index
    rw [same, sound'.index] at found
    exact (Option.some.inj found).symm
  obtain ⟨collection, behind⟩ := List.append_inj same lengths
  obtain ⟨dot, name⟩ := List.cons.inj behind
  obtain ⟨_, _, _⟩ := p
  exact Parts.mk.injEq .. ▸ ⟨collection, dot, name⟩

/-- The dot makes no part of a reference. -/
theorem Sound.free (sound : p.Sound) : Free [.punct .equals] p.tokens := by
  obtain ⟨collection, divided, noMark⟩ := sound.collection_free
  obtain ⟨name, divided', noEquals⟩ := sound.name_free
  have plain : ¬ Opens (p.dot :: p.name) :=
    fun opens => nomatch sound.isDot.symm.trans opens.percent
  refine ⟨collection ++ .text p.dot :: name, divided.append (.text plain divided') ?_, ?_⟩
  · rintro _ ⟨⟩ brace
    cases sound.isDot.symm.trans brace
  · intro t member equals
    rcases List.mem_append.mp member with inCollection | behind
    · exact noMark t inCollection (List.mem_cons_of_mem _ equals)
    · rcases List.mem_cons.mp behind with here | inName
      · obtain rfl := Segment.text.inj here
        cases sound.isDot.symm.trans (List.mem_singleton.mp equals)
      · exact noEquals t inName equals

end Parts

/-- What is read when the first dot is known. -/
theorem read_eq_ok_iff {action : VariableAction} {collection name : List Token}
    {dot closing : Token}
    (found : Window.indexAtDepth? (.punct .dot) 0 (collection ++ dot :: name) =
      some collection.length) {m : Member} :
    Member.read action ⟨collection ++ dot :: name, closing⟩ = .ok m ↔
      collection ≠ [] ∧ name ≠ [] ∧ Reads collection m.collection ∧ Reads name m.name := by
  have found' : Window.indexOutsideMacros? ⟨collection ++ dot :: name, closing⟩ (.punct .dot) =
      some collection.length := found
  have parts : Window.splitAt ⟨collection ++ dot :: name, closing⟩ collection.length =
      (⟨collection, dot⟩, ⟨dot :: name, closing⟩) := by
    simp [Window.splitAt, Window.drop]
  unfold Member.read
  rw [found']
  simp only [parts, Window.isEmpty, List.isEmpty_iff, Window.drop_tokens, List.drop_succ_cons,
    List.drop_zero]
  by_cases noCollection : collection = []
  · rw [if_pos noCollection]
    refine ⟨fun read => ?_, fun all => absurd noCollection all.1⟩
    cases read
  by_cases noName : name = []
  · rw [if_neg noCollection, if_pos noName]
    refine ⟨fun read => ?_, fun all => absurd noName all.2.1⟩
    cases read
  rw [if_neg noCollection, if_neg noName]
  constructor
  · intro read
    obtain ⟨c, readCollection, read⟩ := bind_eq_ok_iff.mp read
    obtain ⟨n, readName, same⟩ := bind_eq_ok_iff.mp read
    cases same
    exact ⟨noCollection, noName, (ExpandableString.reads_iff dot).mp readCollection,
      (ExpandableString.reads_iff closing).mp readName⟩
  · rintro ⟨-, -, readCollection, readName⟩
    exact bind_eq_ok_iff.mpr ⟨_, readCollection dot, bind_eq_ok_iff.mpr ⟨_, readName closing, rfl⟩⟩

/-- What is read when the parts are known. -/
theorem Parts.Sound.read_eq_ok_iff {p : Parts} (sound : p.Sound) {action : VariableAction}
    {closing : Token} {m : Member} :
    Member.read action ⟨p.tokens, closing⟩ = .ok m ↔ p.Gives m := by
  refine (Member.read_eq_ok_iff sound.index).trans ⟨?_, ?_⟩
  · rintro ⟨-, -, collection, name⟩
    exact ⟨collection, name⟩
  · rintro ⟨collection, name⟩
    exact ⟨sound.collection_ne_nil, sound.name_ne_nil, collection, name⟩

/-- Parts are read to something. -/
theorem Parts.Sound.exists_gives {p : Parts} (sound : p.Sound) : ∃ m, p.Gives m := by
  obtain ⟨front, divided, -⟩ := sound.collection_free
  obtain ⟨back, divided', -⟩ := sound.name_free
  obtain ⟨collection, readCollection⟩ := ExpandableString.exists_reads_iff.mpr ⟨front, divided⟩
  obtain ⟨name, readName⟩ := ExpandableString.exists_reads_iff.mpr ⟨back, divided'⟩
  exact ⟨⟨collection, name⟩, readCollection, readName⟩

/-- What is read has parts, if there is no equals sign in it. -/
theorem exists_parts {action : VariableAction} {w : Window} {m : Member}
    (read : Member.read action w = .ok m)
    (noEquals : ∀ segments, Divides w.tokens segments →
      ∀ t, Segment.text t ∈ segments → t.kind ≠ .punct .equals) :
    ∃ p : Parts, p.Sound ∧ p.tokens = w.tokens := by
  obtain ⟨tokens, closing⟩ := w
  cases found : Window.indexAtDepth? (.punct .dot) 0 tokens with
  | none =>
    have found' : Window.indexOutsideMacros? ⟨tokens, closing⟩ (.punct .dot) = none := found
    rw [Member.read, found'] at read
    cases read
  | some i =>
    obtain ⟨collection, dot, name, rfl, rfl, isDot⟩ := Window.exists_of_indexAtDepth? found
    obtain ⟨someCollection, someName, readCollection, readName⟩ :=
      (Member.read_eq_ok_iff found).mp read
    obtain ⟨front, divided⟩ := ExpandableString.exists_reads_iff.mp ⟨_, readCollection⟩
    obtain ⟨back, divided'⟩ := ExpandableString.exists_reads_iff.mp ⟨_, readName⟩
    have plain : ¬ Opens (dot :: name) := fun opens => nomatch isDot.symm.trans opens.percent
    have border : ∀ t ∈ (dot :: name).head?, t.kind ≠ .punct .curlyOpen := by
      rintro _ ⟨⟩ brace
      cases isDot.symm.trans brace
    have noDot := divided.free_of_index (.punct .dot) _ border fun i first =>
      Nat.le_of_eq (Option.some.inj (found.symm.trans first))
    have none := noEquals _ (divided.append (.text plain divided') border)
    refine ⟨⟨collection, dot, name⟩, ⟨isDot, someCollection, someName, ⟨front, divided, ?_⟩,
      ⟨back, divided', ?_⟩⟩, rfl⟩
    · intro t member mark
      rcases List.mem_cons.mp mark with isDot | isEquals
      · exact noDot t member isDot
      · exact none t (List.mem_append_left _ member) (List.mem_singleton.mp isEquals)
    · intro t member isEquals
      exact none t (List.mem_append_right _ (List.mem_cons_of_mem _ member))
        (List.mem_singleton.mp isEquals)

end Member

/-! ### Changes

What is behind the equals sign begins with the sign of an amount or does not, and that decides
between the three changes with a modifier. -/

namespace VarChange

/-- An equals sign, possibly the sign of an amount, and what is assigned. -/
structure Parts where
  equals : Token
  sign : Option Token
  amount : List Token

namespace Parts

/-- The tokens that parts stand for. -/
def tokens (p : Parts) : List Token := p.equals :: (p.sign.toList ++ p.amount)

/-- How an **assignment is divided**: a plus or minus directly behind the equals sign is a sign. -/
structure Sound (p : Parts) : Prop where
  isEquals : p.equals.kind = .punct .equals
  isSign : ∀ t ∈ p.sign, t.kind = .punct .plus ∨ t.kind = .punct .minus
  unsigned : p.sign = none →
    ∀ t ∈ p.amount.head?, t.kind ≠ .punct .plus ∧ t.kind ≠ .punct .minus

/-- The **changes that parts stand for.**  What is added or subtracted is not empty. -/
inductive Gives (p : Parts) : VarChange → Prop
  | set {s : ExpandableString} (unsigned : p.sign = none) (read : Reads p.amount s) :
    Gives p (.set s)
  | add {sign : Token} {s : ExpandableString} (signed : p.sign = some sign)
    (plus : sign.kind = .punct .plus) (nonempty : p.amount ≠ []) (read : Reads p.amount s) :
    Gives p (.add s)
  | subtract {sign : Token} {s : ExpandableString} (signed : p.sign = some sign)
    (minus : sign.kind = .punct .minus) (nonempty : p.amount ≠ []) (read : Reads p.amount s) :
    Gives p (.subtract s)

end Parts

/-- An **amount** is a text that is not empty. -/
theorem readAmount_eq_ok_iff {amount : List Token} {closing : Token} {s : ExpandableString} :
    readAmount ⟨amount, closing⟩ = .ok s ↔ amount ≠ [] ∧ Reads amount s := by
  unfold readAmount
  simp only [Window.isEmpty, List.isEmpty_iff]
  by_cases empty : amount = []
  · rw [if_pos empty]
    refine ⟨fun read => ?_, fun both => absurd empty both.1⟩
    cases read
  · rw [if_neg empty, ExpandableString.reads_iff]
    exact (and_iff_right empty).symm

section Read

variable {sign closing : Token} {amount : List Token}

/-- Behind a **plus sign** an amount is read. -/
theorem read_plus (plus : sign.kind = .punct .plus) :
    VarChange.read ⟨sign :: amount, closing⟩ = add <$> readAmount ⟨amount, closing⟩ :=
  if_pos (by simp [Window.startsWith, Token.isKind, plus])

/-- Behind a **minus sign** an amount is read. -/
theorem read_minus (minus : sign.kind = .punct .minus) :
    VarChange.read ⟨sign :: amount, closing⟩ = subtract <$> readAmount ⟨amount, closing⟩ := by
  rw [VarChange.read, if_neg (by simp [Window.startsWith, Token.isKind, minus]),
    if_pos (by simp [Window.startsWith, Token.isKind, minus])]
  rfl

/-- Without a sign the **whole text** is the value to set. -/
theorem read_unsigned
    (unsigned : ∀ t ∈ amount.head?, t.kind ≠ .punct .plus ∧ t.kind ≠ .punct .minus) :
    VarChange.read ⟨amount, closing⟩ = set <$> ExpandableString.readValue ⟨amount, closing⟩ := by
  cases amount with
  | nil => rfl
  | cons t amount =>
    obtain ⟨noPlus, noMinus⟩ := unsigned t rfl
    rw [VarChange.read, if_neg (by simp [Window.startsWith, Token.isKind, noPlus]),
      if_neg (by simp [Window.startsWith, Token.isKind, noMinus])]

end Read

/-- What is read when the parts are known. -/
theorem Parts.Sound.read_eq_ok_iff {p : Parts} (sound : p.Sound) {closing : Token}
    {change : VarChange} :
    VarChange.read ⟨p.sign.toList ++ p.amount, closing⟩ = .ok change ↔ p.Gives change := by
  -- The sign decides between the three readings, and each of the changes that the parts could stand
  -- for asks for one of them; the other two are excluded by the sign in each case.
  obtain ⟨equals, sign, amount⟩ := p
  cases sign with
  | none =>
    show VarChange.read ⟨amount, closing⟩ = _ ↔ _
    rw [read_unsigned (sound.unsigned rfl)]
    refine map_eq_ok_iff.trans ⟨?_, ?_⟩
    · rintro ⟨s, read, rfl⟩
      exact .set rfl ((ExpandableString.reads_iff closing).mp read)
    · rintro (⟨-, read⟩ | ⟨signed⟩ | ⟨signed⟩)
      · exact ⟨_, read closing, rfl⟩
      · cases signed
      · cases signed
  | some sign =>
    show VarChange.read ⟨sign :: amount, closing⟩ = _ ↔ _
    rcases sound.isSign sign rfl with plus | minus
    · rw [read_plus plus]
      refine map_eq_ok_iff.trans ⟨?_, ?_⟩
      · rintro ⟨s, read, rfl⟩
        obtain ⟨nonempty, reads⟩ := readAmount_eq_ok_iff.mp read
        exact .add rfl plus nonempty reads
      · rintro (⟨unsigned, -⟩ | ⟨-, -, nonempty, read⟩ | ⟨signed, minus, -⟩)
        · cases unsigned
        · exact ⟨_, readAmount_eq_ok_iff.mpr ⟨nonempty, read⟩, rfl⟩
        · cases signed
          cases plus.symm.trans minus
    · rw [read_minus minus]
      refine map_eq_ok_iff.trans ⟨?_, ?_⟩
      · rintro ⟨s, read, rfl⟩
        obtain ⟨nonempty, reads⟩ := readAmount_eq_ok_iff.mp read
        exact .subtract rfl minus nonempty reads
      · rintro (⟨unsigned, -⟩ | ⟨signed, plus, -⟩ | ⟨-, -, nonempty, read⟩)
        · cases unsigned
        · cases signed
          cases plus.symm.trans minus
        · exact ⟨_, readAmount_eq_ok_iff.mpr ⟨nonempty, read⟩, rfl⟩

/-- Parts are read to something if the amount is. -/
theorem Parts.Sound.exists_gives {p : Parts} (sound : p.Sound) {s : ExpandableString}
    (read : Reads p.amount s) (nonempty : p.sign ≠ none → p.amount ≠ []) :
    ∃ change, p.Gives change := by
  cases signed : p.sign with
  | none => exact ⟨.set s, .set signed read⟩
  | some sign =>
    have amount : p.amount ≠ [] := nonempty (signed ▸ Option.some_ne_none sign)
    rcases sound.isSign sign signed with plus | minus
    · exact ⟨.add s, .add signed plus amount read⟩
    · exact ⟨.subtract s, .subtract signed minus amount read⟩

/-- An assignment has one division. -/
theorem Parts.Sound.unique {p p' : Parts} (sound : p.Sound) (sound' : p'.Sound)
    (same : p.tokens = p'.tokens) : p = p' := by
  obtain ⟨equals, sign, amount⟩ := p
  obtain ⟨equals', sign', amount'⟩ := p'
  obtain ⟨rfl, behind⟩ := List.cons.inj same
  have notSigned {sign : Token} {amount : List Token} (first : amount.head? = some sign)
      (sound : (Parts.mk equals none amount).Sound) :
      ¬ (sign.kind = .punct .plus ∨ sign.kind = .punct .minus) := by
    obtain ⟨noPlus, noMinus⟩ := sound.unsigned rfl sign first
    exact not_or.mpr ⟨noPlus, noMinus⟩
  cases sign with
  | none =>
    cases sign' with
    | none => exact congrArg _ behind
    | some sign' =>
      obtain rfl : amount = sign' :: amount' := behind
      exact absurd (sound'.isSign sign' rfl) (notSigned rfl sound)
  | some sign =>
    cases sign' with
    | none =>
      obtain rfl : sign :: amount = amount' := behind
      exact absurd (sound.isSign sign rfl) (notSigned rfl sound')
    | some sign' =>
      obtain ⟨rfl, rfl⟩ := List.cons.inj behind
      rfl

/-- Every window with an equals sign has parts. -/
theorem exists_parts (equals : Token) (isEquals : equals.kind = .punct .equals)
    (behind : List Token) : ∃ p : Parts, p.Sound ∧ p.tokens = equals :: behind := by
  by_cases signed : ∃ t ∈ behind.head?, t.kind = .punct .plus ∨ t.kind = .punct .minus
  · obtain ⟨sign, first, isSign⟩ := signed
    obtain ⟨amount, rfl⟩ := List.head?_eq_some_iff.mp first
    refine ⟨⟨equals, some sign, amount⟩, ⟨isEquals, ?_, fun unsigned => ?_⟩, rfl⟩
    · rintro _ ⟨⟩
      exact isSign
    · cases unsigned
  · refine ⟨⟨equals, none, behind⟩, ⟨isEquals, ?_, fun _ t first => ?_⟩, rfl⟩
    · rintro _ ⟨⟩
    · exact ⟨fun plus => signed ⟨t, first, .inl plus⟩, fun minus => signed ⟨t, first, .inr minus⟩⟩

end VarChange

/-! ### Values of `setvar`

The other two changes are decided before: an exclamation mark in front deletes the variable, and
without an equals sign it is set to one.  So a value is in one of four cases, by the mark and by the
sign, and the reader refuses the one that has both. -/

namespace SetVar

/-- Possibly an exclamation mark, a variable, and possibly what is assigned to it. -/
structure Parts where
  exclamation : Option Token
  target : Member.Parts
  assigned : Option VarChange.Parts

namespace Parts

/-- The tokens that parts stand for. -/
def tokens (p : Parts) : List Token :=
  p.exclamation.toList ++ (p.target.tokens ++ p.assigned.elim [] VarChange.Parts.tokens)

/-- The tokens of a variable that is **deleted**. -/
theorem tokens_deleted (exclamation : Token) (target : Member.Parts) :
    (Parts.mk (some exclamation) target none).tokens = exclamation :: target.tokens :=
  congrArg (exclamation :: ·) (List.append_nil _)

/-- The tokens of a variable that **nothing is assigned to**. -/
theorem tokens_kept (target : Member.Parts) : (Parts.mk none target none).tokens = target.tokens :=
  List.append_nil _

/-- The tokens of a variable and **what is assigned to it**. -/
theorem tokens_assigned (target : Member.Parts) (a : VarChange.Parts) :
    (Parts.mk none target (some a)).tokens =
      target.tokens ++ a.equals :: (a.sign.toList ++ a.amount) := rfl

/-- How the value of `setvar` is **divided.**  An exclamation mark in front is no part of the
collection, and nothing is assigned behind it. -/
structure Sound (p : Parts) : Prop where
  target : p.target.Sound
  isExclamation : ∀ t ∈ p.exclamation, t.kind = .punct .exclamation
  kept : p.exclamation = none → ∀ t ∈ p.target.collection.head?, t.kind ≠ .punct .exclamation
  assigned : ∀ a ∈ p.assigned, a.Sound
  deleted : p.exclamation ≠ none → p.assigned = none

/-- The **changes that parts stand for.** -/
inductive Changes (p : Parts) : VarChange → Prop
  | delete (deleted : p.exclamation ≠ none) : Changes p .delete
  | setToOne (kept : p.exclamation = none) (nothing : p.assigned = none) : Changes p .setToOne
  | assign {a : VarChange.Parts} {change : VarChange} (assigned : p.assigned = some a)
    (gives : a.Gives change) : Changes p change

/-- What the parts are read to. -/
structure Gives (p : Parts) (v : SetVar) : Prop where
  member : p.target.Gives v.member
  changes : p.Changes v.change

end Parts

section Read

variable {target back : List Token} {exclamation equals closing : Token} {v : SetVar}

/-- Without an equals sign the **whole value** is the variable. -/
theorem splitAssignment_none (noEquals : Window.indexAtDepth? (.punct .equals) 0 target = none) :
    splitAssignment ⟨target, closing⟩ = (⟨target, closing⟩, none) := by
  have found : Window.indexOutsideMacros? ⟨target, closing⟩ (.punct .equals) = none := noEquals
  rw [splitAssignment, found]

/-- The variable ends at the **first equals sign**, which also closes its window. -/
theorem splitAssignment_some
    (found : Window.indexAtDepth? (.punct .equals) 0 (target ++ equals :: back) =
      some target.length) :
    splitAssignment ⟨target ++ equals :: back, closing⟩ =
      (⟨target, equals⟩, some ⟨equals :: back, closing⟩) := by
  have found' : Window.indexOutsideMacros? ⟨target ++ equals :: back, closing⟩ (.punct .equals) =
      some target.length := found
  rw [splitAssignment, found']
  simp [Window.splitAt, Window.drop]

/-- A value with an exclamation mark in front **begins with it**. -/
theorem startsWith_exclamation (isExclamation : exclamation.kind = .punct .exclamation) :
    Window.startsWith ⟨exclamation :: target, closing⟩ (.punct .exclamation) = true := by
  simp [Window.startsWith, Token.isKind, isExclamation]

/-- A value without one in front **does not**. -/
theorem not_startsWith_exclamation (kept : ∀ t ∈ target.head?, t.kind ≠ .punct .exclamation) :
    Window.startsWith ⟨target, closing⟩ (.punct .exclamation) = false := by
  cases target with
  | nil => rfl
  | cons t target => simpa [Window.startsWith, Token.isKind] using kept t rfl

/-- A variable that is deleted. -/
theorem read_deleted (isExclamation : exclamation.kind = .punct .exclamation)
    (noEquals : Window.indexAtDepth? (.punct .equals) 0 target = none) :
    SetVar.read ⟨exclamation :: target, closing⟩ = .ok v ↔
      Member.read .setVar ⟨target, closing⟩ = .ok v.member ∧ v.change = .delete := by
  simp only [SetVar.read, startsWith_exclamation isExclamation, if_true, Window.drop,
    List.drop_succ_cons, List.drop_zero, splitAssignment_none noEquals]
  constructor
  · intro read
    obtain ⟨member, readMember, same⟩ := bind_eq_ok_iff.mp read
    cases same
    exact ⟨readMember, rfl⟩
  · obtain ⟨member, change⟩ := v
    rintro ⟨readMember, rfl⟩
    exact bind_eq_ok_iff.mpr ⟨member, readMember, rfl⟩

/-- A variable that nothing is assigned to. -/
theorem read_kept (kept : ∀ t ∈ target.head?, t.kind ≠ .punct .exclamation)
    (noEquals : Window.indexAtDepth? (.punct .equals) 0 target = none) :
    SetVar.read ⟨target, closing⟩ = .ok v ↔
      Member.read .setVar ⟨target, closing⟩ = .ok v.member ∧ v.change = .setToOne := by
  simp only [SetVar.read, not_startsWith_exclamation kept, Bool.false_eq_true, if_false,
    splitAssignment_none noEquals]
  constructor
  · intro read
    obtain ⟨member, readMember, same⟩ := bind_eq_ok_iff.mp read
    cases same
    exact ⟨readMember, rfl⟩
  · obtain ⟨member, change⟩ := v
    rintro ⟨readMember, rfl⟩
    exact bind_eq_ok_iff.mpr ⟨member, readMember, rfl⟩

/-- A variable and what is assigned to it. -/
theorem read_assigned
    (kept : ∀ t ∈ (target ++ equals :: back).head?, t.kind ≠ .punct .exclamation)
    (found : Window.indexAtDepth? (.punct .equals) 0 (target ++ equals :: back) =
      some target.length) :
    SetVar.read ⟨target ++ equals :: back, closing⟩ = .ok v ↔
      Member.read .setVar ⟨target, equals⟩ = .ok v.member ∧
        VarChange.read ⟨back, closing⟩ = .ok v.change := by
  simp only [SetVar.read, not_startsWith_exclamation kept, Bool.false_eq_true, if_false,
    splitAssignment_some found, Window.drop, List.drop_succ_cons, List.drop_zero]
  constructor
  · intro read
    obtain ⟨member, readMember, read⟩ := bind_eq_ok_iff.mp read
    obtain ⟨change, readChange, same⟩ := bind_eq_ok_iff.mp read
    cases same
    exact ⟨readMember, readChange⟩
  · obtain ⟨member, change⟩ := v
    rintro ⟨readMember, readChange⟩
    exact bind_eq_ok_iff.mpr ⟨member, readMember, bind_eq_ok_iff.mpr ⟨change, readChange, rfl⟩⟩

/-- Nothing is assigned to a variable that is deleted. -/
theorem read_ne_ok_of_deleted (isExclamation : exclamation.kind = .punct .exclamation)
    (found : Window.indexAtDepth? (.punct .equals) 0 (target ++ equals :: back) =
      some target.length) :
    SetVar.read ⟨exclamation :: (target ++ equals :: back), closing⟩ ≠ .ok v := by
  simp only [SetVar.read, startsWith_exclamation isExclamation, if_true, Window.drop,
    List.drop_succ_cons, List.drop_zero, splitAssignment_some found]
  intro read
  obtain ⟨member, -, refused⟩ := bind_eq_ok_iff.mp read
  cases refused

end Read

/-- The equals sign of the parts is found again. -/
theorem Parts.Sound.index {p : Parts} (sound : p.Sound) :
    Window.indexAtDepth? (.punct .equals) 0
        (p.target.tokens ++ p.assigned.elim [] VarChange.Parts.tokens) =
      p.assigned.map fun _ => p.target.tokens.length := by
  have free := sound.target.free
  cases assigned : p.assigned with
  | none =>
    rw [Option.elim_none, List.append_nil]
    exact free.index_none (List.mem_singleton.mpr rfl)
  | some a =>
    have found := free.index a.equals (a.sign.toList ++ a.amount)
    rw [(sound.assigned a assigned).isEquals] at found
    exact found (List.mem_singleton.mpr rfl) nofun nofun

/-- What is read when the parts are known. -/
theorem Parts.Sound.read_eq_ok_iff {p : Parts} (sound : p.Sound) {closing : Token} {v : SetVar} :
    SetVar.read ⟨p.tokens, closing⟩ = .ok v ↔ p.Gives v := by
  -- The mark in front and the equals sign decide which of the four lemmas above applies.
  have found := sound.index
  have first := sound.target.head
  obtain ⟨exclamation, target, assigned⟩ := p
  obtain ⟨sound, isExclamation, kept, soundAssigned, deleted⟩ := sound
  dsimp only at sound isExclamation kept soundAssigned deleted found first
  cases exclamation with
  | some exclamation =>
    obtain rfl : assigned = none := deleted nofun
    rw [Option.elim_none, List.append_nil] at found
    rw [tokens_deleted, read_deleted (isExclamation _ rfl) found, sound.read_eq_ok_iff]
    constructor
    · rintro ⟨member, change⟩
      exact ⟨member, change ▸ .delete nofun⟩
    · rintro ⟨member, changes⟩
      generalize v.change = change at changes
      rcases changes with - | ⟨⟨⟩⟩ | ⟨⟨⟩⟩
      exact ⟨member, rfl⟩
  | none =>
    have kept' (behind : List Token) :
        ∀ t ∈ (target.tokens ++ behind).head?, t.kind ≠ .punct .exclamation := by
      rw [first behind]
      exact kept rfl
    cases assigned with
    | none =>
      rw [Option.elim_none, List.append_nil] at found
      rw [tokens_kept, read_kept (List.append_nil target.tokens ▸ kept' []) found,
        sound.read_eq_ok_iff]
      constructor
      · rintro ⟨member, change⟩
        exact ⟨member, change ▸ .setToOne rfl rfl⟩
      · rintro ⟨member, changes⟩
        generalize v.change = change at changes
        rcases changes with ⟨deleted⟩ | - | ⟨⟨⟩⟩
        · exact absurd rfl deleted
        · exact ⟨member, rfl⟩
    | some a =>
      rw [tokens_assigned, read_assigned (kept' _) found, sound.read_eq_ok_iff,
        (soundAssigned a rfl).read_eq_ok_iff]
      constructor
      · rintro ⟨member, change⟩
        exact ⟨member, .assign rfl change⟩
      · rintro ⟨member, changes⟩
        refine ⟨member, ?_⟩
        generalize v.change = change at changes
        rcases changes with ⟨deleted⟩ | ⟨-, ⟨⟩⟩ | ⟨⟨⟩, gives⟩
        · exact absurd rfl deleted
        · exact gives

/-- What is read has parts. -/
theorem exists_parts {w : Window} {v : SetVar} (read : SetVar.read w = .ok v) :
    ∃ p : Parts, p.Sound ∧ p.tokens = w.tokens := by
  -- The same four cases, now by what the reader finds.  It refuses one of them, and in each of the
  -- others the marks that were found are those of the parts.
  obtain ⟨tokens, closing⟩ := w
  by_cases deleted : ∃ t ∈ tokens.head?, t.kind = .punct .exclamation
  · obtain ⟨exclamation, first, isExclamation⟩ := deleted
    obtain ⟨rest, rfl⟩ := List.head?_eq_some_iff.mp first
    cases found : Window.indexAtDepth? (.punct .equals) 0 rest with
    | none =>
      obtain ⟨readMember, -⟩ := (read_deleted isExclamation found).mp read
      obtain ⟨p, sound, same⟩ := Member.exists_parts readMember (noEquals_of_index_none found)
      refine ⟨⟨some exclamation, p, none⟩, ⟨sound, ?_, fun kept => ?_, ?_, fun _ => rfl⟩, ?_⟩
      · rintro _ ⟨⟩
        exact isExclamation
      · cases kept
      · rintro _ ⟨⟩
      · rw [Parts.tokens_deleted, same]
    | some i =>
      obtain ⟨target, equals, back, rfl, rfl, -⟩ := Window.exists_of_indexAtDepth? found
      exact absurd read (read_ne_ok_of_deleted isExclamation found)
  · have kept : ∀ t ∈ tokens.head?, t.kind ≠ .punct .exclamation :=
      fun t first isExclamation => deleted ⟨t, first, isExclamation⟩
    have keptParts {p : Member.Parts} {behind : List Token} (sound : p.Sound)
        (same : p.tokens ++ behind = tokens) :
        ∀ t ∈ p.collection.head?, t.kind ≠ .punct .exclamation := by
      rw [← sound.head behind, same]
      exact kept
    cases found : Window.indexAtDepth? (.punct .equals) 0 tokens with
    | none =>
      obtain ⟨readMember, -⟩ := (read_kept kept found).mp read
      obtain ⟨p, sound, same⟩ := Member.exists_parts readMember (noEquals_of_index_none found)
      have whole : p.tokens ++ [] = tokens := (List.append_nil _).trans same
      refine ⟨⟨none, p, none⟩, ⟨sound, ?_, fun _ => keptParts sound whole, ?_, fun _ => rfl⟩, whole⟩
      · rintro _ ⟨⟩
      · rintro _ ⟨⟩
    | some i =>
      obtain ⟨target, equals, back, rfl, rfl, isEquals⟩ := Window.exists_of_indexAtDepth? found
      obtain ⟨readMember, -⟩ := (read_assigned kept found).mp read
      obtain ⟨p, sound, same⟩ := Member.exists_parts readMember (noEquals_of_index isEquals found)
      obtain ⟨a, soundAssigned, assigned⟩ := VarChange.exists_parts equals isEquals back
      have tokens : p.tokens ++ a.tokens = target ++ equals :: back := by rw [same, assigned]
      refine ⟨⟨none, p, some a⟩, ⟨sound, ?_, fun _ => keptParts sound tokens, ?_,
        fun deleted => (deleted rfl).elim⟩, tokens⟩
      · rintro _ ⟨⟩
      · rintro _ ⟨⟩
        exact soundAssigned

/-- An exclamation mark in front is that of the parts. -/
theorem Parts.Sound.exclamation_eq {p : Parts} (sound : p.Sound) :
    p.exclamation = p.tokens.head?.filter fun t => t.kind == .punct .exclamation := by
  cases deleted : p.exclamation with
  | some exclamation =>
    have first : p.tokens.head? = some exclamation := by
      rw [tokens, deleted]
      rfl
    have isExclamation := beq_iff_eq.mpr (sound.isExclamation _ deleted)
    exact (Option.filter_eq_some_iff.mpr ⟨first, isExclamation⟩).symm
  | none =>
    have first : p.tokens.head? = p.target.collection.head? := by
      rw [tokens, deleted, Option.toList_none, List.nil_append, sound.target.head]
    rw [first]
    refine (Option.filter_eq_none_iff.mpr fun t inCollection isExclamation => ?_).symm
    exact sound.kept deleted t inCollection (beq_iff_eq.mp isExclamation)

/-- The value of `setvar` has **one division.** -/
theorem Parts.Sound.unique {p p' : Parts} (sound : p.Sound) (sound' : p'.Sound)
    (same : p.tokens = p'.tokens) : p = p' := by
  have exclamations : p.exclamation = p'.exclamation := by
    rw [sound.exclamation_eq, sound'.exclamation_eq, same]
  have rest : p.target.tokens ++ p.assigned.elim [] VarChange.Parts.tokens =
      p'.target.tokens ++ p'.assigned.elim [] VarChange.Parts.tokens := by
    rw [tokens, tokens, exclamations] at same
    exact List.append_cancel_left same
  have found := sound.index
  rw [rest, sound'.index] at found
  obtain ⟨exclamation, target, assigned⟩ := p
  obtain ⟨exclamation', target', assigned'⟩ := p'
  dsimp only at exclamations rest found
  subst exclamations
  cases assigned with
  | none =>
    cases assigned' with
    | none =>
      rw [Option.elim_none, List.append_nil, List.append_nil] at rest
      obtain rfl : target = target' := sound.target.unique sound'.target rest
      rfl
    | some a' => cases found
  | some a =>
    cases assigned' with
    | none => cases found
    | some a' =>
      obtain ⟨targets, assignments⟩ := List.append_inj rest (Option.some.inj found).symm
      obtain rfl : target = target' := sound.target.unique sound'.target targets
      obtain rfl : a = a' := (sound.assigned a rfl).unique (sound'.assigned a' rfl) assignments
      rfl

end SetVar

/-! ### Values of `expirevar`

The same with less freedom: the equals sign has to be there, and what is behind it is always a text
that is not empty. -/

namespace ExpireVar

/-- A variable, an equals sign and a number of seconds. -/
structure Parts where
  target : Member.Parts
  equals : Token
  seconds : List Token

namespace Parts

/-- The tokens that parts stand for. -/
def tokens (p : Parts) : List Token := p.target.tokens ++ p.equals :: p.seconds

/-- How the value of `expirevar` is **divided.** -/
structure Sound (p : Parts) : Prop where
  target : p.target.Sound
  isEquals : p.equals.kind = .punct .equals
  seconds_ne_nil : p.seconds ≠ []

/-- What the parts are read to. -/
structure Gives (p : Parts) (v : ExpireVar) : Prop where
  member : p.target.Gives v.member
  seconds : Reads p.seconds v.seconds

variable {p : Parts}

/-- The equals sign of the parts is found again. -/
theorem Sound.index (sound : p.Sound) :
    Window.indexAtDepth? (.punct .equals) 0 p.tokens = some p.target.tokens.length := by
  have found := sound.target.free.index p.equals p.seconds
  rw [sound.isEquals] at found
  exact found (List.mem_singleton.mpr rfl) nofun nofun

/-- The value of `expirevar` has **one division.** -/
theorem Sound.unique {p' : Parts} (sound : p.Sound) (sound' : p'.Sound)
    (same : p.tokens = p'.tokens) : p = p' := by
  have lengths : p.target.tokens.length = p'.target.tokens.length := by
    have found := sound.index
    rw [same, sound'.index] at found
    exact (Option.some.inj found).symm
  obtain ⟨targets, behind⟩ := List.append_inj same lengths
  obtain ⟨equals, seconds⟩ := List.cons.inj behind
  have target := sound.target.unique sound'.target targets
  obtain ⟨_, _, _⟩ := p
  exact Parts.mk.injEq .. ▸ ⟨target, equals, seconds⟩

end Parts

/-- What is read when the first equals sign is known. -/
theorem read_eq_ok_iff {target seconds : List Token} {equals closing : Token} {v : ExpireVar}
    (found : Window.indexAtDepth? (.punct .equals) 0 (target ++ equals :: seconds) =
      some target.length) :
    ExpireVar.read ⟨target ++ equals :: seconds, closing⟩ = .ok v ↔
      Member.read .expireVar ⟨target, equals⟩ = .ok v.member ∧ seconds ≠ [] ∧
        Reads seconds v.seconds := by
  have found' : Window.indexOutsideMacros? ⟨target ++ equals :: seconds, closing⟩
      (.punct .equals) = some target.length := found
  have parts : Window.splitAt ⟨target ++ equals :: seconds, closing⟩ target.length =
      (⟨target, equals⟩, ⟨equals :: seconds, closing⟩) := by
    simp [Window.splitAt, Window.drop]
  unfold ExpireVar.read
  rw [found']
  simp only [parts, Window.isEmpty, List.isEmpty_iff, Window.drop_tokens, List.drop_succ_cons,
    List.drop_zero]
  constructor
  · intro read
    obtain ⟨member, readMember, read⟩ := bind_eq_ok_iff.mp read
    by_cases empty : seconds = []
    · rw [if_pos empty] at read
      cases read
    · rw [if_neg empty] at read
      obtain ⟨s, readSeconds, same⟩ := bind_eq_ok_iff.mp read
      cases same
      exact ⟨readMember, empty, (ExpandableString.reads_iff closing).mp readSeconds⟩
  · rintro ⟨readMember, nonempty, readSeconds⟩
    refine bind_eq_ok_iff.mpr ⟨_, readMember, ?_⟩
    rw [if_neg nonempty]
    exact bind_eq_ok_iff.mpr ⟨_, readSeconds closing, rfl⟩

/-- What is read when the parts are known. -/
theorem Parts.Sound.read_eq_ok_iff {p : Parts} (sound : p.Sound) {closing : Token}
    {v : ExpireVar} : ExpireVar.read ⟨p.tokens, closing⟩ = .ok v ↔ p.Gives v := by
  refine (ExpireVar.read_eq_ok_iff sound.index).trans ?_
  rw [sound.target.read_eq_ok_iff]
  constructor
  · rintro ⟨member, -, seconds⟩
    exact ⟨member, seconds⟩
  · rintro ⟨member, seconds⟩
    exact ⟨member, sound.seconds_ne_nil, seconds⟩

/-- What is read has parts. -/
theorem exists_parts {w : Window} {v : ExpireVar} (read : ExpireVar.read w = .ok v) :
    ∃ p : Parts, p.Sound ∧ p.tokens = w.tokens := by
  obtain ⟨tokens, closing⟩ := w
  cases found : Window.indexAtDepth? (.punct .equals) 0 tokens with
  | none =>
    have found' : Window.indexOutsideMacros? ⟨tokens, closing⟩ (.punct .equals) = none := found
    rw [ExpireVar.read, found'] at read
    cases read
  | some i =>
    obtain ⟨target, equals, seconds, rfl, rfl, isEquals⟩ := Window.exists_of_indexAtDepth? found
    obtain ⟨readMember, nonempty, -⟩ := (ExpireVar.read_eq_ok_iff found).mp read
    obtain ⟨p, sound, same⟩ :=
      Member.exists_parts readMember (noEquals_of_index isEquals found)
    refine ⟨⟨p, equals, seconds⟩, ⟨sound, isEquals, nonempty⟩, ?_⟩
    rw [Parts.tokens, same]

end ExpireVar

/-! ### Both values

The two kinds of assignment are cut in one way: at the first equals sign outside of references,
which the one may lack, and the front of it at the first dot. -/

/-- The values of `setvar` and of `expirevar` are **divided at the first dot and the first equals
sign outside references.**  A value that is read has one division, and is what its parts are read
to; and with such a division, a value whose parts can be read is read. -/
theorem SetVar.read_divided (w : Window) :
    (∀ v, SetVar.read w = .ok v → ∃ p : SetVar.Parts, p.Sound ∧ p.tokens = w.tokens ∧ p.Gives v ∧
      ∀ p' : SetVar.Parts, p'.Sound → p'.tokens = w.tokens → p' = p) ∧
    (∀ p : SetVar.Parts, p.Sound → p.tokens = w.tokens →
      (∀ a ∈ p.assigned, (∃ s, Reads a.amount s) ∧ (a.sign ≠ none → a.amount ≠ [])) →
      ∃ v, SetVar.read w = .ok v ∧ p.Gives v) ∧
    (∀ v, ExpireVar.read w = .ok v → ∃ p : ExpireVar.Parts, p.Sound ∧ p.tokens = w.tokens ∧
      p.Gives v ∧ ∀ p' : ExpireVar.Parts, p'.Sound → p'.tokens = w.tokens → p' = p) ∧
    ∀ p : ExpireVar.Parts, p.Sound → p.tokens = w.tokens → (∃ s, Reads p.seconds s) →
      ∃ v, ExpireVar.read w = .ok v ∧ p.Gives v := by
  obtain ⟨tokens, closing⟩ := w
  refine ⟨fun v read => ?_, fun p sound same amounts => ?_, fun v read => ?_,
    fun p sound same seconds => ?_⟩
  · obtain ⟨p, sound, rfl⟩ := SetVar.exists_parts read
    exact ⟨p, sound, rfl, sound.read_eq_ok_iff.mp read,
      fun p' sound' same => sound'.unique sound same⟩
  · obtain rfl : p.tokens = tokens := same
    obtain ⟨member, gives⟩ := sound.target.exists_gives
    have changes : ∃ change, p.Changes change := by
      cases deleted : p.exclamation with
      | some exclamation => exact ⟨.delete, .delete (deleted ▸ Option.some_ne_none exclamation)⟩
      | none =>
        cases assigned : p.assigned with
        | none => exact ⟨.setToOne, .setToOne deleted assigned⟩
        | some a =>
          obtain ⟨⟨s, read⟩, nonempty⟩ := amounts a assigned
          obtain ⟨change, gives⟩ := (sound.assigned a assigned).exists_gives read nonempty
          exact ⟨change, .assign assigned gives⟩
    obtain ⟨change, changes⟩ := changes
    exact ⟨⟨member, change⟩, sound.read_eq_ok_iff.mpr ⟨gives, changes⟩, gives, changes⟩
  · obtain ⟨p, sound, rfl⟩ := ExpireVar.exists_parts read
    exact ⟨p, sound, rfl, sound.read_eq_ok_iff.mp read,
      fun p' sound' same => sound'.unique sound same⟩
  · obtain rfl : p.tokens = tokens := same
    obtain ⟨member, gives⟩ := sound.target.exists_gives
    obtain ⟨s, read⟩ := seconds
    exact ⟨⟨member, s⟩, sound.read_eq_ok_iff.mpr ⟨gives, read⟩, gives, read⟩

open Lexer (token)

/-- A dot and an equals sign inside references divide nothing. -/
theorem SetVar.read_divided_reference :
    ∃ (w : Window) (p : SetVar.Parts), w.text = "tx.%\x7bip.a\x7d=-%\x7bip.b=c\x7d" ∧ p.Sound ∧
      p.tokens = w.tokens ∧
      p.Gives ⟨⟨⟨[.literal "tx"]⟩, ⟨[.reference ⟨some "ip", "a"⟩]⟩⟩,
        .subtract ⟨[.reference ⟨some "ip", "b=c"⟩]⟩⟩ := by
  let percent : Token := token (.punct .percent) "%" default
  let brace : Token := token (.punct .curlyOpen) "\x7b" default
  let dot : Token := token (.punct .dot) "." default
  let close : Token := token (.punct .curlyClose) "\x7d" default
  let equals : Token := token (.punct .equals) "=" default
  let word (text : String) : Token := token .word text default
  let w : Window := ⟨[word "tx", dot, percent, brace, word "ip", dot, word "a", close, equals,
    token (.punct .minus) "-" default, percent, brace, word "ip", dot, word "b", equals, word "c",
    close], token .argumentStop "\"" default⟩
  have read : SetVar.read w = .ok ⟨⟨⟨[.literal "tx"]⟩, ⟨[.reference ⟨some "ip", "a"⟩]⟩⟩,
      .subtract ⟨[.reference ⟨some "ip", "b=c"⟩]⟩⟩ := by
    decide +kernel
  obtain ⟨p, sound, same, gives, -⟩ := (SetVar.read_divided w).1 _ read
  exact ⟨w, p, by decide +kernel, sound, same, gives⟩

end WafRules
