import WafRules.Token.Lexer

/-!
# Scanning the rest of a text

The lexer folds a step over the characters of a text and looks at its last state at the end.
Statements about a text in the middle of which the lexer stands need the two together: the
tokens of all that is still to come, and the error that ends them.

`scanFrom` is a recursion on the text, where the lexer itself is a loop over its characters.  Its
equations are the ones that proofs by induction on a text use: one character of the text gives the
tokens of one step, in front of the scan of the others.

## Main Definitions

* `Lexer.scanFrom` — the tokens of the rest of a text, from a place and a state.
* `Lexer.run` — the tokens of a stretch of text, and the state after it.

## Main Statements

* `Lexer.scan_eq_scanFrom` — a text is scanned from the start of its first line.
* `Lexer.scanFrom_append` — a text is scanned by running over its first part and scanning the
  second from there.
-/

namespace WafRules

namespace Lexer

/-- A scan with more tokens before its own. -/
def Scan.prepend (tokens : List Token) (scan : Scan) : Scan :=
  { scan with tokens := tokens ++ scan.tokens }

@[simp]
theorem Scan.prepend_tokens (tokens : List Token) (scan : Scan) :
    (scan.prepend tokens).tokens = tokens ++ scan.tokens := rfl

@[simp]
theorem Scan.prepend_failure (tokens : List Token) (scan : Scan) :
    (scan.prepend tokens).failure = scan.failure := rfl

@[simp]
theorem Scan.prepend_nil (scan : Scan) : scan.prepend [] = scan := rfl

@[simp]
theorem Scan.prepend_prepend (first second : List Token) (scan : Scan) :
    (scan.prepend second).prepend first = scan.prepend (first ++ second) := by
  simp only [Scan.prepend, List.append_assoc]

/-- The tokens of the rest of a text, when the lexer has reached a place in a state. -/
def scanFrom (p : Position) (state : State) : List Char → Scan
  | [] => ⟨(finish p state).1, (finish p state).2⟩
  | c :: cs => (scanFrom (p.next c) (step p state c).2 cs).prepend (step p state c).1

theorem scanFrom_nil (p : Position) (state : State) :
    scanFrom p state [] = ⟨(finish p state).1, (finish p state).2⟩ := rfl

theorem scanFrom_cons (p : Position) (state : State) (c : Char) (cs : List Char) :
    scanFrom p state (c :: cs) =
      (scanFrom (p.next c) (step p state c).2 cs).prepend (step p state c).1 := rfl

/-- One step of a scan, for a step that is known. -/
theorem scanFrom_step {p : Position} {state after : State} {c : Char} {tokens : List Token}
    (stepped : step p state c = (tokens, after)) (cs : List Char) :
    scanFrom p state (c :: cs) = (scanFrom (p.next c) after cs).prepend tokens := by
  rw [scanFrom_cons, stepped]

/-- The tokens of a stretch of text, and the state after it. -/
def run (p : Position) (state : State) : List Char → Outcome
  | [] => ([], state)
  | c :: cs =>
    let (tokens, after) := step p state c
    let (others, last) := run (p.next c) after cs
    (tokens ++ others, last)

@[simp]
theorem run_nil (p : Position) (state : State) : run p state [] = ([], state) := rfl

theorem run_cons (p : Position) (state : State) (c : Char) (cs : List Char) :
    run p state (c :: cs) =
      ((step p state c).1 ++ (run (p.next c) (step p state c).2 cs).1,
        (run (p.next c) (step p state c).2 cs).2) := rfl

/-- The state after a stretch of text is the state after its second part. -/
theorem run_append (p : Position) (state : State) (cs ds : List Char) :
    run p state (cs ++ ds) =
      ((run p state cs).1 ++ (run (p.advance cs) (run p state cs).2 ds).1,
        (run (p.advance cs) (run p state cs).2 ds).2) := by
  induction cs generalizing p state with
  | nil => rfl
  | cons c cs ih =>
    rw [List.cons_append, run_cons, run_cons, ih, Position.advance_cons]
    simp only [List.append_assoc]

/-- A text is scanned by running over its first part and scanning the second from there. -/
theorem scanFrom_append (p : Position) (state : State) (cs ds : List Char) :
    scanFrom p state (cs ++ ds) =
      (scanFrom (p.advance cs) (run p state cs).2 ds).prepend (run p state cs).1 := by
  induction cs generalizing p state with
  | nil => rfl
  | cons c cs ih =>
    rw [List.cons_append, scanFrom_cons, ih, Scan.prepend_prepend, run_cons,
      Position.advance_cons]

/-- After an error nothing is read. -/
theorem scanFrom_failed (p : Position) (error : LexError) (cs : List Char) :
    scanFrom p (.failed error) cs = ⟨[], some error⟩ := by
  induction cs generalizing p with
  | nil => rfl
  | cons c cs ih => rw [scanFrom_cons, step, ih, Scan.prepend_nil]

/-- What the lexer holds in the middle of a text decides the rest of its scan. -/
theorem Progress.finish_feedAll (progress : Progress) (cs : List Char) :
    (progress.feedAll cs).finish =
      (scanFrom progress.position progress.state cs).prepend progress.tokens.toList := by
  induction cs generalizing progress with
  | nil => simp [Progress.feedAll, Progress.finish, scanFrom_nil, Scan.prepend]
  | cons c cs ih =>
    have fed : progress.feedAll (c :: cs) = (progress.feed c).feedAll cs := rfl
    rw [fed, ih, scanFrom_cons, Scan.prepend_prepend]
    simp [Progress.feed]

/-- A text is scanned from the start of its first line. -/
theorem scan_eq_scanFrom (label text : String) :
    scan label text = scanFrom (.start label) .lineStart text.toList := by
  rw [scan, Progress.finish_feedAll]
  rfl

end Lexer

/-- A text has a token stream exactly when its scan ends without an error. -/
theorem tokenize_eq_ok_iff {label text : String} {tokens : List Token} :
    tokenize label text = .ok tokens ↔
      Lexer.scanFrom (.start label) .lineStart text.toList = ⟨tokens, none⟩ := by
  rw [tokenize, Lexer.scan_eq_scanFrom]
  cases scanned : Lexer.scanFrom (.start label) .lineStart text.toList with
  | mk found failure => cases failure <;> simp

/-- A text is malformed exactly when an error stops its scan. -/
theorem tokenize_eq_error_iff {label text : String} {error : LexError} :
    tokenize label text = .error error ↔
      (Lexer.scanFrom (.start label) .lineStart text.toList).failure = some error := by
  rw [tokenize, Lexer.scan_eq_scanFrom]
  cases scanned : Lexer.scanFrom (.start label) .lineStart text.toList with
  | mk found failure => cases failure <;> simp

end WafRules
