import Colloquy.Display.Console

/-!
# A console whose sink fills up

A line is written to a sink in pieces, and a sink of limited capacity may stop at any byte of any
piece. It does not matter where: what the sink holds is what fits of all that was to be written
(`ByteSink.filled`), and from the line that did not fit on nothing is written anymore.

* `ByteSink.writeAll_filled`: pieces are written to the sink as one.
* `Console.writeLine_filled`: a line succeeds if it fits with all that came before it.
* `Console.askAll_filled`: what a sequence of requests leaves.
* `Console.fills_up`: the same of a new console, and of the lines that come.
-/

namespace Colloquy

open Text

/-! ## The sink -/

namespace ByteSink

/-- The sink of capacity `n` to which `bytes` were to be written. -/
def filled (n : Nat) (bytes : List UInt8) : ByteSink := ⟨bytes.take n, some n⟩

variable {n : Nat} {before bytes : List UInt8}

theorem empty_eq_filled (n : Nat) : empty (some n) = filled n [] := by
  rw [empty, filled, List.take_nil]

/-- Where the capacity is reached, nothing that comes changes the sink. -/
theorem filled_append (h : n ≤ before.length) (bytes : List UInt8) :
    filled n (before ++ bytes) = filled n before := by
  rw [filled, filled, List.take_append_of_le_length h]

/-- The answer to a request that needs `needed` bytes where there is room for `room`. -/
def answer (needed room : Nat) : Except WriteFailure Unit :=
  if needed ≤ room then .ok () else .error ⟨"sink is full"⟩

theorem answer_eq_ok_iff {needed room : Nat} : answer needed room = .ok () ↔ needed ≤ room := by
  rw [answer]
  split <;> simp [*]

theorem write_filled (n : Nat) (before bytes : List UInt8) :
    (filled n before).write bytes =
      (answer bytes.length (n - before.length), filled n (before ++ bytes)) := by
  have hkept : (filled n before).fitting bytes = bytes.take (n - before.length) := by
    -- The sink holds no more than it can, so the room is what is left of the capacity.
    have hroom : n - (before.take n).length = n - before.length := by
      rw [List.length_take]
      omega
    exact congrArg bytes.take hroom
  have hanswer : (bytes.take (n - before.length)).length = bytes.length ↔
      bytes.length ≤ n - before.length := by
    rw [List.length_take]
    omega
  rw [write, hkept, filled, filled, List.take_append]
  simp only [hanswer, answer]

/-- Pieces are written as if they were one: the answer is that of the whole, and as much of it is
kept. -/
theorem writeAll_filled (n : Nat) (before : List UInt8) (pieces : List (List UInt8)) :
    writeAll pieces (filled n before) =
      (answer pieces.flatten.length (n - before.length),
        filled n (before ++ pieces.flatten)) := by
  induction pieces generalizing before with
  | nil =>
    rw [writeAll, List.flatten_nil, List.append_nil]
    rfl
  | cons piece pieces ih =>
    rw [writeAll, write_filled, List.flatten_cons, List.length_append, ← List.append_assoc]
    by_cases hfits : piece.length ≤ n - before.length
    · -- The room that is left is for the others.
      have hrest : pieces.flatten.length ≤ n - (before ++ piece).length ↔
          piece.length + pieces.flatten.length ≤ n - before.length := by
        rw [List.length_append]
        omega
      rw [answer, if_pos hfits]
      simp only [ih, answer, hrest]
    · have hover : n ≤ (before ++ piece).length := by
        rw [List.length_append]
        omega
      have hwhole : ¬ piece.length + pieces.flatten.length ≤ n - before.length := by omega
      rw [answer, if_neg hfits, answer, if_neg hwhole, filled_append hover]

end ByteSink

namespace Console

/-- What a console may be asked for. -/
inductive Request (κ : Type)
  | line (text : String)
  | highlight (color : Option κ)
  deriving DecidableEq, Repr

variable {κ : Type}

/-- The highlight after the requests, if it is `highlight` before them. -/
def lastHighlight (highlight : Option κ) : List (Request κ) → Option κ
  | [] => highlight
  | .line _ :: requests => lastHighlight highlight requests
  | .highlight color :: requests => lastHighlight color requests

variable [Terminal κ]

/-! ## Lines -/

/-- What is written for a line: in the color, if there is one. -/
def encoding (highlight : Option κ) (line : String) : List UInt8 :=
  match highlight with
  | none => utf8 (line ++ "\n")
  | some color =>
    utf8 (Terminal.escapeSequence color ++ line ++ Terminal.resetSequence κ ++ "\n")

theorem flatten_pieces (highlight : Option κ) (line : String) :
    ((pieces highlight line).map utf8).flatten = encoding highlight line := by
  cases highlight with
  | none =>
    simp only [pieces, encoding, List.map_cons, List.map_nil, List.flatten_cons, List.flatten_nil,
      List.append_nil, utf8_append]
  | some color =>
    simp only [pieces, encoding, List.map_cons, List.map_nil, List.flatten_cons, List.flatten_nil,
      List.append_nil, utf8_append, List.append_assoc]

/-- There is no line without a byte, since all end in a line feed. -/
theorem length_encoding_pos (highlight : Option κ) (line : String) :
    0 < (encoding highlight line).length := by
  have hfeed : 0 < (utf8 "\n").length := by decide
  cases highlight with
  | none | some =>
    rw [encoding, utf8_append, List.length_append]
    omega

theorem writeLine_filled (n : Nat) (before : List UInt8) (highlight : Option κ) (line : String) :
    writeLine line ⟨.filled n before, highlight⟩ =
      (ByteSink.answer (before ++ encoding highlight line).length n,
        ⟨.filled n (before ++ encoding highlight line), highlight⟩) := by
  have hfits : (encoding highlight line).length ≤ n - before.length ↔
      (before ++ encoding highlight line).length ≤ n := by
    have := length_encoding_pos highlight line
    rw [List.length_append]
    omega
  simp only [writeLine, ByteSink.writeAll_filled, flatten_pieces, ByteSink.answer, hfits]

/-! ## Requests, one after the other -/

/-- Does as asked, whatever becomes of it. -/
def ask (console : Console κ) : Request κ → Console κ
  | .line text => (console.writeLine text).2
  | .highlight color => console.setHighlight color

def askAll (requests : List (Request κ)) (console : Console κ) : Console κ :=
  requests.foldl ask console

/-- The bytes of all lines that were to be written, each in the highlight in force. -/
def attempted (highlight : Option κ) : List (Request κ) → List UInt8
  | [] => []
  | .line text :: requests => encoding highlight text ++ attempted highlight requests
  | .highlight color :: requests => attempted color requests

theorem attempted_append (highlight : Option κ) (requests more : List (Request κ)) :
    attempted highlight (requests ++ more) =
      attempted highlight requests ++ attempted (lastHighlight highlight requests) more := by
  induction requests generalizing highlight with
  | nil => rfl
  | cons request requests ih =>
    cases request with
    | line text =>
      rw [List.cons_append, attempted, attempted, lastHighlight, ih, List.append_assoc]
    | highlight color => exact ih color

theorem ask_filled (n : Nat) (before : List UInt8) (highlight : Option κ) (request : Request κ) :
    ask ⟨.filled n before, highlight⟩ request =
      ⟨.filled n (before ++ attempted highlight [request]),
        lastHighlight highlight [request]⟩ := by
  cases request with
  | line text =>
    rw [ask, writeLine_filled, attempted, attempted, List.append_nil]
    rfl
  | highlight color =>
    rw [ask, attempted, attempted, List.append_nil]
    rfl

/-- The sink holds what fits of all that was to be written, and the highlight that was set last is the
one in force. -/
theorem askAll_filled (n : Nat) (before : List UInt8) (highlight : Option κ)
    (requests : List (Request κ)) :
    askAll requests ⟨.filled n before, highlight⟩ =
      ⟨.filled n (before ++ attempted highlight requests),
        lastHighlight highlight requests⟩ := by
  induction requests generalizing before highlight with
  | nil =>
    rw [attempted, List.append_nil]
    rfl
  | cons request requests ih =>
    rw [← List.singleton_append, attempted_append, ← List.append_assoc]
    have hrun := congrArg (askAll requests) (ask_filled n before highlight request)
    rw [ih] at hrun
    refine hrun.trans ?_
    cases request <;> rfl

/-- The bytes in a sink of any capacity are the first of all that were to be written to it. A line
succeeds if it still fits; it never changes the highlight; and from one that does not fit on all lines
fail and the sink stays as it is. -/
theorem fills_up (n : Nat) (requests : List (Request κ)) :
    let console := askAll requests (new (some n))
    console.sink.written = (attempted none requests).take (min n (attempted none requests).length) ∧
      console.highlight = lastHighlight none requests ∧
      ∀ line answer after, console.writeLine line = (answer, after) →
        after.highlight = console.highlight ∧
          (answer = .ok () ↔ (attempted none (requests ++ [.line line])).length ≤ n) ∧
          (answer ≠ .ok () → ∀ more next again later,
            (askAll more after).writeLine next = (again, later) →
              again ≠ .ok () ∧ later.sink = after.sink) := by
  have hrun (requests : List (Request κ)) : askAll requests (new (some n)) =
      ⟨.filled n (attempted none requests), lastHighlight none requests⟩ := by
    rw [new, ByteSink.empty_eq_filled, askAll_filled, List.nil_append]
  dsimp only
  rw [hrun]
  refine ⟨?_, rfl, ?_⟩
  · rw [ByteSink.filled, ← List.take_eq_take_min]
  intro line answer after hline
  have hattempted : attempted none (requests ++ [.line line]) =
      attempted none requests ++ encoding (lastHighlight none requests) line := by
    rw [attempted_append, attempted, attempted, List.append_nil]
  rw [writeLine_filled, ← hattempted] at hline
  obtain ⟨rfl, rfl⟩ := Prod.mk.inj hline
  refine ⟨rfl, ByteSink.answer_eq_ok_iff, ?_⟩
  intro hfull more next again later hnext
  have hover : n < (attempted none (requests ++ [.line line])).length :=
    Nat.lt_of_not_le fun h => hfull (ByteSink.answer_eq_ok_iff.mpr h)
  -- All that was to be written since comes behind what did not fit.
  rw [askAll_filled, writeLine_filled] at hnext
  obtain ⟨rfl, rfl⟩ := Prod.mk.inj hnext
  refine ⟨fun hok => ?_, ?_⟩
  · have hfits := ByteSink.answer_eq_ok_iff.mp hok
    simp only [List.length_append] at hfits hover
    omega
  · rw [List.append_assoc, ByteSink.filled_append (Nat.le_of_lt hover)]

/-- The sink is full in the middle of the escape sequence that sets the color. -/
theorem fills_up_midway :
    let console := askAll [.line "Hi", .highlight (some TermColor.green)] (new (some 7))
    let after := (console.writeLine "Yes").2
    console.sink.written = utf8 "Hi\n" ∧ after.sink.written = utf8 "Hi\n\x1b[38" ∧
      after.highlight = some .green ∧ (console.writeLine "Yes").1 ≠ .ok () ∧
      ((askAll [.highlight none] after).writeLine "").1 ≠ .ok () ∧
      ((askAll [.highlight none] after).writeLine "").2.sink = after.sink := by
  obtain ⟨-, -, hline⟩ := fills_up 7 [.line "Hi", .highlight (some TermColor.green)]
  obtain ⟨hhighlight, -, hlater⟩ := hline "Yes" _ _ rfl
  have hfull : ((askAll [.line "Hi", .highlight (some TermColor.green)]
      (new (some 7))).writeLine "Yes").1 ≠ .ok () := by
    intro hok
    cases hok
  obtain ⟨hagain, hsame⟩ := hlater hfull [.highlight none] "" _ _ rfl
  exact ⟨by decide, by decide, hhighlight, hfull, hagain, hsame⟩

end Console

end Colloquy
