import Colloquy.Dialog.Turn
import Colloquy.Proofs.Engine.TypedLines
import Mathlib.Data.List.DropRight

/-!
# The history of typed input

An engine is asked to load, to make attempts and to unload, in any order. What typed input answers
depends on two things only: on the grammar that the requests so far leave loaded (`loadedBy`), and on
the number of attempts made while one was (`reads`). Each such attempt takes one line, the next one
(`follows_after`), so its answer is that of the loaded grammar on that line alone
(`answers_of_history`).

* `lines_append`, `lines_line`: how bytes behind one another are cut into lines.
-/

namespace Colloquy

open Text

namespace Engine

/-! ## Requests to an engine -/

inductive Request
  | load (g : Grammar)
  | attempt (timeout : Duration)
  | unload

/-- The state of an engine after a request. -/
def ask {σ : Type} [Engine σ] (world : σ) : Request → σ
  | .load g => (load g world).2
  | .attempt timeout => (attempt timeout world).2
  | .unload => (unload world).2

/-- The state of an engine after requests, one after the other. -/
def after {σ : Type} [Engine σ] (requests : List Request) (world : σ) : σ := requests.foldl ask world

theorem after_concat {σ : Type} [Engine σ] (requests : List Request) (request : Request)
    (world : σ) : after (requests ++ [request]) world = ask (after requests world) request :=
  List.foldl_append

/-! ## What requests come to -/

def Request.isUnload : Request → Bool
  | .unload => true
  | .load _ | .attempt _ => false

def Request.isAttempt : Request → Bool
  | .attempt _ => true
  | .load _ | .unload => false

def Request.grammar? : Request → Option Grammar
  | .load g => some g
  | .attempt _ | .unload => none

/-- The grammar that requests leave loaded: the first that was asked for since the last unload. -/
def loadedBy (requests : List Request) : Option Grammar :=
  (requests.rtakeWhile (!·.isUnload)).findSome? Request.grammar?

/-- The number of attempts that were made while a grammar was loaded. -/
def reads (requests : List Request) : Nat :=
  requests.zipIdx.countP fun (request, position) =>
    request.isAttempt && (loadedBy (requests.take position)).isSome

theorem loadedBy_unload (requests : List Request) : loadedBy (requests ++ [.unload]) = none := by
  rw [loadedBy, List.rtakeWhile_concat_neg _ _ _ (by decide)]
  rfl

theorem loadedBy_attempt (requests : List Request) (timeout : Duration) :
    loadedBy (requests ++ [.attempt timeout]) = loadedBy requests := by
  rw [loadedBy, List.rtakeWhile_concat_pos _ _ _ rfl, List.findSome?_append]
  exact Option.or_none

/-- A grammar that is loaded stays loaded. -/
theorem loadedBy_load (requests : List Request) (g : Grammar) :
    loadedBy (requests ++ [.load g]) = some ((loadedBy requests).getD g) := by
  rw [loadedBy, List.rtakeWhile_concat_pos _ _ _ rfl, List.findSome?_append, ← loadedBy]
  cases loadedBy requests <;> rfl

theorem reads_concat (requests : List Request) (request : Request) :
    reads (requests ++ [request]) =
      reads requests + if request.isAttempt && (loadedBy requests).isSome then 1 else 0 := by
  rw [reads, List.zipIdx_append, List.countP_append]
  congr 1
  · apply List.countP_congr
    rintro ⟨earlier, position⟩ hmem
    have hlt := (List.mem_zipIdx hmem).2.1
    dsimp only
    rw [List.take_append_of_le_length (by omega)]
  · simp [List.countP_cons]

end Engine

/-! ## Bytes behind one another -/

namespace Text

/-- Where the first part of the bytes ends with a line, the second begins with one. -/
theorem lines_append {before rest : List UInt8}
    (h : before = [] ∨ before.getLast? = some newline) :
    lines (before ++ rest) = lines before ++ lines rest := by
  induction before with
  | nil => rfl
  | cons b before ih =>
    cases before with
    | nil =>
      obtain rfl : b = newline := by simpa using h
      rw [List.singleton_append, lines, if_pos rfl, lines, if_pos rfl]
      rfl
    | cons c before =>
      have hrest : lines (c :: before ++ rest) = lines (c :: before) ++ lines rest :=
        ih (Or.inr (by simpa [List.getLast?_cons_cons] using h))
      rw [List.cons_append, lines, lines, hrest]
      by_cases hb : b = newline
      · rw [if_pos hb, if_pos hb, List.cons_append]
      · rw [if_neg hb, if_neg hb]
        cases hfirst : lines (c :: before) with
        | nil =>
          have hflat := lines_flatten (c :: before)
          rw [hfirst] at hflat
          cases hflat
        | cons line more => rfl

theorem lines_line {body : List UInt8} (h : newline ∉ body) (rest : List UInt8) :
    lines (body ++ newline :: rest) = (body ++ [newline]) :: lines rest :=
  lines_of_takeLine? (takeLine?_append_newline h rest)

theorem newline_mem_of_takeLine? {bytes line rest : List UInt8}
    (h : takeLine? bytes = some (line, rest)) (hrest : rest ≠ []) : newline ∈ line := by
  cases bytes with
  | nil => cases h
  | cons first bytes =>
    have hhead := List.head?_dropWhile_not (· != newline) (first :: bytes)
    cases hdrop : (first :: bytes).dropWhile (· != newline) with
    | nil =>
      simp only [takeLine?, hdrop] at h
      cases h
      exact absurd rfl hrest
    | cons b after =>
      rw [hdrop] at hhead
      have hb : b = newline := by simpa using hhead
      simp only [takeLine?, hdrop] at h
      cases h
      exact List.mem_append_right _ (List.mem_singleton.mpr hb.symm)

/-- Only the last line may be without a newline. -/
theorem newline_mem_of_lines_cons {bytes line : List UInt8} {rest : List (List UInt8)}
    (h : lines bytes = line :: rest) (hrest : rest ≠ []) : newline ∈ line := by
  refine newline_mem_of_takeLine? (takeLine?_of_lines_cons h) fun hnone => hrest ?_
  rw [← lines_flatten_of_cons h, hnone]
  rfl

theorem newline_mem_of_mem_lines {before line : List UInt8}
    (hbefore : before = [] ∨ before.getLast? = some newline) (hline : line ∈ lines before) :
    newline ∈ line := by
  obtain ⟨earlier, later, hsplit⟩ := List.append_of_mem hline
  have hlines : lines (before ++ [newline]) = earlier ++ line :: (later ++ [[newline]]) := by
    rw [lines_append hbefore, hsplit, List.append_assoc, List.cons_append]
    rfl
  exact newline_mem_of_lines_cons (lines_flatten_of_append hlines) (by simp)

/-- The bytes differ in one line only, behind `k` others; it is within the bytes, and ends with a
newline, or it is the last line and does not. -/
inductive DifferAt (k : Nat) : List UInt8 → List UInt8 → Prop
  | within {before body garbled rest : List UInt8}
    (hbefore : before = [] ∨ before.getLast? = some newline) (hk : (lines before).length = k)
    (hbody : newline ∉ body) (hgarbled : newline ∉ garbled) :
    DifferAt k (before ++ (body ++ newline :: rest)) (before ++ (garbled ++ newline :: rest))
  | last {before body garbled : List UInt8}
    (hbefore : before = [] ∨ before.getLast? = some newline) (hk : (lines before).length = k)
    (hbody : newline ∉ body ∧ body ≠ []) (hgarbled : newline ∉ garbled ∧ garbled ≠ []) :
    DifferAt k (before ++ body) (before ++ garbled)

theorem DifferAt.lines_eq {k : Nat} {bytes garbled : List UInt8} (h : DifferAt k bytes garbled) :
    ∃ earlier line line' later, earlier.length = k ∧ (∀ l ∈ earlier, newline ∈ l) ∧
      (newline ∈ line ↔ newline ∈ line') ∧ lines bytes = earlier ++ line :: later ∧
      lines garbled = earlier ++ line' :: later := by
  cases h with
  | @within before body garbled rest hbefore hk hbody hgarbled =>
    refine ⟨lines before, body ++ [newline], garbled ++ [newline], lines rest, hk,
      fun _ => newline_mem_of_mem_lines hbefore, by simp, ?_, ?_⟩
    · rw [lines_append hbefore, lines_line hbody]
    · rw [lines_append hbefore, lines_line hgarbled]
  | @last before body garbled hbefore hk hbody hgarbled =>
    refine ⟨lines before, body, garbled, [], hk, fun _ => newline_mem_of_mem_lines hbefore,
      iff_of_false hbody.1 hgarbled.1, ?_, ?_⟩
    · rw [lines_append hbefore, lines_of_newline_not_mem hbody.1 hbody.2]
    · rw [lines_append hbefore, lines_of_newline_not_mem hgarbled.1 hgarbled.2]

end Text

namespace TypedInput

open Engine

/-- The lines that can be read: one without a newline at its end is lost to a reader that fails. -/
def utterances (input : TypedInput) : List (List UInt8) :=
  (lines input.unread).filter fun line => input.ending = .closed ∨ newline ∈ line

variable {input : TypedInput} {g : Grammar}

theorem utterances_eq_nil {line : List UInt8} {rest : List (List UInt8)}
    (hlines : lines input.unread = line :: rest)
    (hlost : ¬ (input.ending = .closed ∨ newline ∈ line)) : rest = [] := by
  apply Classical.byContradiction
  intro hrest
  exact hlost (Or.inr (newline_mem_of_lines_cons hlines hrest))

/-- An attempt takes the next line off the lines that can be read. -/
theorem attempt_utterances_cons (hloaded : input.loaded = some g) {line : List UInt8}
    {rest : List (List UInt8)} (h : input.utterances = line :: rest) :
    ∃ after, input.attempt = (.ok (g.recognize (decodeUtf8 line)), after) ∧
      after.loaded = input.loaded ∧ after.ending = input.ending ∧ after.utterances = rest ∧
      input.unread = line ++ after.unread := by
  cases hlines : lines input.unread with
  | nil =>
    rw [utterances, hlines] at h
    cases h
  | cons first more =>
    by_cases hread : input.ending = .closed ∨ newline ∈ first
    · rw [utterances, hlines, List.filter_cons_of_pos (by simpa using hread)] at h
      obtain ⟨rfl, rfl⟩ := List.cons.inj h
      refine ⟨_, attempt_cons hloaded hlines hread, rfl, rfl, ?_, ?_⟩
      · rw [utterances, lines_flatten_of_cons hlines]
      · rw [← List.flatten_cons, ← hlines, lines_flatten]
    · obtain rfl := utterances_eq_nil hlines hread
      rw [utterances, hlines, List.filter_cons_of_neg (by simpa using hread)] at h
      cases h

/-- Without a line that can be read, an attempt meets the end of the input. -/
theorem attempt_utterances_nil (hloaded : input.loaded = some g) (h : input.utterances = []) :
    ∃ after, input.attempt = (.error input.ending.failure, after) ∧
      after.loaded = input.loaded ∧ after.ending = input.ending ∧ after.utterances = [] := by
  cases hlines : lines input.unread with
  | nil =>
    have hunread : input.unread = [] := by rw [← lines_flatten input.unread, hlines]; rfl
    refine ⟨input, ?_, rfl, rfl, h⟩
    simp only [attempt, hloaded, readLine, takeLine?_eq_none_iff.mpr hunread]
  | cons first more =>
    by_cases hread : input.ending = .closed ∨ newline ∈ first
    · rw [utterances, hlines, List.filter_cons_of_pos (by simpa using hread)] at h
      cases h
    · obtain rfl := utterances_eq_nil hlines hread
      refine ⟨{ input with unread := [] }, ?_, rfl, rfl, rfl⟩
      simp only [attempt, hloaded, readLine, takeLine?_of_lines_cons hlines, if_neg hread]
      rfl

/-- Behind the lines that are the same come the same lines. -/
theorem utterances_differAt {k j : Nat} {garbled : List UInt8}
    (h : DifferAt k input.unread garbled) (hj : j ≠ k) :
    { input with unread := garbled }.utterances[j]? = input.utterances[j]? := by
  obtain ⟨earlier, line, line', later, rfl, hearlier, hline, hlines, hlines'⟩ := h.lines_eq
  have hkept : earlier.filter (fun l => input.ending = .closed ∨ newline ∈ l) = earlier :=
    List.filter_eq_self.mpr fun l hl => by simpa using Or.inr (hearlier l hl)
  rw [utterances, utterances, hlines, hlines', List.filter_append, List.filter_append, hkept]
  rcases Nat.lt_or_ge j earlier.length with hlt | hge
  · rw [List.getElem?_append_left hlt, List.getElem?_append_left hlt]
  · rw [List.getElem?_append_right hge, List.getElem?_append_right hge]
    obtain ⟨i, hi⟩ := Nat.exists_eq_succ_of_ne_zero (n := j - earlier.length) (by omega)
    rw [hi, List.filter_cons, List.filter_cons]
    simp only [hline]
    split
    · rfl
    · rfl

/-! ## The history -/

/-- What the requests have made of the input: `reached` has loaded what they leave loaded, and has
read a line for each attempt made while something was. -/
structure Follows (input : TypedInput) (requests : List Request) (reached : TypedInput) : Prop where
  loaded : reached.loaded = loadedBy requests
  ending : reached.ending = input.ending
  utterances : reached.utterances = input.utterances.drop (reads requests)

variable {requests : List Request} {reached : TypedInput}

theorem load_of_loaded (hloaded : input.loaded = some g) (next : Grammar) :
    input.load next =
      (.error (.rejected ("grammar \"" ++ g.name ++ "\" is still loaded")), input) := by
  rw [load, hloaded]

theorem load_of_unloaded (hloaded : input.loaded = none) (g : Grammar) :
    input.load g = (.ok (), { input with loaded := some g }) := by
  rw [load, hloaded]

theorem attempt_of_unloaded (hloaded : input.loaded = none) :
    input.attempt = (.error (.rejected "no grammar loaded"), input) := by
  rw [attempt, hloaded]

theorem Follows.load (h : Follows input requests reached) (g : Grammar) :
    Follows input (requests ++ [.load g]) (reached.load g).2 := by
  have hreads : reads (requests ++ [.load g]) = reads requests := reads_concat requests (.load g)
  have hloadedBy := loadedBy_load requests g
  rw [← h.loaded] at hloadedBy
  cases hloaded : reached.loaded with
  | some active =>
    rw [load_of_loaded hloaded]
    exact ⟨by rw [hloadedBy, hloaded, Option.getD_some], h.ending, hreads ▸ h.utterances⟩
  | none =>
    rw [load_of_unloaded hloaded]
    exact ⟨by rw [hloadedBy, hloaded, Option.getD_none], h.ending, hreads ▸ h.utterances⟩

theorem Follows.unload (h : Follows input requests reached) :
    Follows input (requests ++ [.unload]) reached.unload.2 := by
  have hreads : reads (requests ++ [.unload]) = reads requests := reads_concat requests .unload
  exact ⟨(loadedBy_unload requests).symm, h.ending, hreads ▸ h.utterances⟩

theorem Follows.attempt (h : Follows input requests reached) (timeout : Duration) :
    Follows input (requests ++ [.attempt timeout]) reached.attempt.2 := by
  have hreads := reads_concat requests (.attempt timeout)
  rw [Request.isAttempt, Bool.true_and, ← h.loaded] at hreads
  have hloadedBy := loadedBy_attempt requests timeout
  rw [← h.loaded] at hloadedBy
  cases hloaded : reached.loaded with
  | none =>
    rw [hloaded] at hreads
    rw [attempt_of_unloaded hloaded]
    exact ⟨hloadedBy.symm, h.ending, hreads ▸ h.utterances⟩
  | some g =>
    rw [hloaded, Option.isSome_some, if_pos rfl] at hreads
    cases hleft : reached.utterances with
    | cons line rest =>
      obtain ⟨after, hattempt, hstill, hending, hrest, -⟩ := attempt_utterances_cons hloaded hleft
      rw [hattempt]
      refine ⟨hstill.trans hloadedBy.symm, hending.trans h.ending, ?_⟩
      rw [hrest, hreads, ← List.drop_drop, ← h.utterances, hleft, List.drop_one, List.tail_cons]
    | nil =>
      obtain ⟨after, hattempt, hstill, hending, hrest⟩ := attempt_utterances_nil hloaded hleft
      rw [hattempt]
      refine ⟨hstill.trans hloadedBy.symm, hending.trans h.ending, ?_⟩
      rw [hrest, hreads, ← List.drop_drop, ← h.utterances, hleft, List.drop_nil]

theorem follows_after (hnone : input.loaded = none) (requests : List Request) :
    Follows input requests (after requests input) := by
  induction requests using List.reverseRecOn with
  | nil => exact ⟨hnone, rfl, rfl⟩
  | append_singleton requests request ih =>
    rw [after_concat]
    cases request with
    | load g => exact ih.load g
    | attempt timeout => exact ih.attempt timeout
    | unload => exact ih.unload

theorem Follows.head? (h : Follows input requests reached) :
    input.utterances[reads requests]? = reached.utterances.head? := by
  rw [h.utterances, List.head?_drop]

/-- The next line is there for an attempt to take. -/
theorem Follows.attempt_line (h : Follows input requests reached) (hg : loadedBy requests = some g)
    {line : List UInt8} (hline : input.utterances[reads requests]? = some line) :
    ∃ rest, reached.unread = line ++ rest.unread ∧
      reached.attempt = (.ok (g.recognize (decodeUtf8 line)), rest) := by
  rw [h.head?, List.head?_eq_some_iff] at hline
  obtain ⟨more, hleft⟩ := hline
  obtain ⟨rest, hattempt, -, -, -, hunread⟩ :=
    attempt_utterances_cons (h.loaded.trans hg) hleft
  exact ⟨rest, hunread, hattempt⟩

theorem Follows.attempt_end (h : Follows input requests reached) (hg : loadedBy requests = some g)
    (hend : input.utterances[reads requests]? = none) :
    reached.attempt.1 = .error input.ending.failure := by
  rw [h.head?, List.head?_eq_none_iff] at hend
  obtain ⟨rest, hattempt, -⟩ := attempt_utterances_nil (h.loaded.trans hg) hend
  rw [hattempt, h.ending]

/-- Inputs with the same next line are answered alike. -/
theorem Follows.attempt_congr {other reached' : TypedInput} (h : Follows input requests reached)
    (h' : Follows other requests reached') (hending : other.ending = input.ending)
    (hnext : other.utterances[reads requests]? = input.utterances[reads requests]?) :
    reached'.attempt.1 = reached.attempt.1 := by
  cases hg : loadedBy requests with
  | none => rw [attempt_of_unloaded (h.loaded.trans hg), attempt_of_unloaded (h'.loaded.trans hg)]
  | some g =>
    cases hline : input.utterances[reads requests]? with
    | some line =>
      obtain ⟨rest, -, hattempt⟩ := h.attempt_line hg hline
      obtain ⟨rest', -, hattempt'⟩ := h'.attempt_line hg (hnext.trans hline)
      rw [hattempt, hattempt']
    | none =>
      rw [h.attempt_end hg hline, h'.attempt_end hg (hnext.trans hline), hending]

/-- Typed input after any row of requests. A grammar is loaded unless one is loaded already, which
then stays loaded; an unload is always granted; neither touches the input. An attempt is refused and
takes nothing if no grammar is loaded. Otherwise it takes the next line, as many lines having been
taken as attempts were made while a grammar was loaded, and answers as the loaded grammar does on
that line; when no line is left it tells why. So bytes that are garbled in one line change the answer
to the attempt that takes this line and to no other. -/
theorem answers_of_history (hnone : input.loaded = none) (requests : List Request) :
    (∀ next, Engine.load next (after requests input) =
        match loadedBy requests with
        | some active => (.error (.rejected ("grammar \"" ++ active.name ++ "\" is still loaded")),
            after requests input)
        | none => (.ok (), { after requests input with loaded := some next })) ∧
      Engine.unload (after requests input) =
        (.ok (), { after requests input with loaded := none }) ∧
      (loadedBy requests = none → ∀ timeout, Engine.attempt timeout (after requests input) =
        (.error (.rejected "no grammar loaded"), after requests input)) ∧
      (∀ g, loadedBy requests = some g → ∀ timeout,
        (∀ line, input.utterances[reads requests]? = some line →
          ∃ rest, (after requests input).unread = line ++ rest.unread ∧
            Engine.attempt timeout (after requests input) =
              (.ok (g.recognize (decodeUtf8 line)), rest) ∧
            (words (decodeUtf8 line) = [] → g.recognize (decodeUtf8 line) = none)) ∧
          (input.utterances[reads requests]? = none →
            (Engine.attempt timeout (after requests input)).1 = .error input.ending.failure)) ∧
      ∀ k garbled, DifferAt k input.unread garbled → reads requests ≠ k → ∀ timeout,
        (Engine.attempt timeout (after requests { input with unread := garbled })).1 =
          (Engine.attempt timeout (after requests input)).1 := by
  have h := follows_after hnone requests
  refine ⟨?_, rfl, ?_, ?_, ?_⟩
  · intro next
    cases hg : loadedBy requests with
    | some active => exact load_of_loaded (h.loaded.trans hg) next
    | none => exact load_of_unloaded (h.loaded.trans hg) next
  · intro hg timeout
    exact attempt_of_unloaded (h.loaded.trans hg)
  · intro g hg timeout
    refine ⟨fun line hline => ?_, h.attempt_end hg⟩
    obtain ⟨rest, hunread, hattempt⟩ := h.attempt_line hg hline
    refine ⟨rest, hunread, hattempt, fun hblank => ?_⟩
    rw [Grammar.recognize, hblank]
  · intro k garbled hdiffer hk timeout
    have hnone' : { input with unread := garbled }.loaded = none := hnone
    have h' := follows_after hnone' requests
    exact h.attempt_congr h' rfl (utterances_differAt hdiffer hk)

/-- Input of which the last line is lost to a reader that fails. -/
def lossyInput : TypedInput :=
  ⟨utf8 "Hello\ncolor  BLUE\nMy name", .failing "unplugged", none⟩

/-- Requests that load, read a line, unload, and then load twice. -/
def reloading : List Request :=
  [.attempt .zero, .load Turn.greeting.grammar, .attempt .zero, .unload,
    .load Turn.favoriteColor.grammar, .load Turn.freeChoice.grammar]

theorem answers_of_history_reloading :
    lossyInput.loaded = none ∧
      loadedBy reloading = some Turn.favoriteColor.grammar ∧ reads reloading = 1 ∧
      lossyInput.utterances = [utf8 "Hello\n", utf8 "color  BLUE\n"] ∧
      Engine.load Turn.greeting.grammar (after reloading lossyInput) =
        (.error (.rejected "grammar \"favorite_color\" is still loaded"),
          after reloading lossyInput) ∧
      (∃ rest, Engine.attempt .zero (after reloading lossyInput) =
        (.ok (Turn.favoriteColor.grammar.recognize "color  BLUE\n"), rest)) ∧
      (Engine.attempt .zero (after (reloading ++ [.attempt .zero]) lossyInput)).1 =
        .error (.io "unplugged") ∧
      (Engine.attempt .zero (after reloading { lossyInput with
          unread := 0xFF :: 0x0A :: utf8 "color  BLUE\nMy name" })).1 =
        (Engine.attempt .zero (after reloading lossyInput)).1 := by
  have hnone : lossyInput.loaded = none := rfl
  have hloaded : loadedBy reloading = some Turn.favoriteColor.grammar := rfl
  have hloaded' : loadedBy (reloading ++ [.attempt .zero]) = some Turn.favoriteColor.grammar := rfl
  have hreads : reads reloading = 1 := by decide
  have hreads' : reads (reloading ++ [.attempt .zero]) = 2 := by decide
  have hlines : lossyInput.utterances = [utf8 "Hello\n", utf8 "color  BLUE\n"] := by
    decide +kernel
  have hdiffer : DifferAt 0 lossyInput.unread (0xFF :: 0x0A :: utf8 "color  BLUE\nMy name") :=
    @DifferAt.within 0 [] (utf8 "Hello") [0xFF] (utf8 "color  BLUE\nMy name") (Or.inl rfl) rfl
      (by decide) (by decide)
  obtain ⟨hload, -, -, hattempt, hgarbled⟩ := answers_of_history hnone reloading
  obtain ⟨-, -, -, hlast, -⟩ := answers_of_history hnone (reloading ++ [.attempt .zero])
  obtain ⟨rest, -, hanswer, -⟩ := (hattempt _ hloaded .zero).1 (utf8 "color  BLUE\n") (by
    rw [hlines, hreads]
    rfl)
  refine ⟨hnone, hloaded, hreads, hlines, ?_, ⟨rest, ?_⟩, ?_, ?_⟩
  · rw [hload, hloaded]
    rfl
  · rw [hanswer, decodeUtf8_utf8]
  · exact (hlast _ hloaded' .zero).2 (by
      rw [hlines, hreads']
      rfl)
  · exact hgarbled 0 _ hdiffer (by rw [hreads]; decide) .zero

end TypedInput

end Colloquy
