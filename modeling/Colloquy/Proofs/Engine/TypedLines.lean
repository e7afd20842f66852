import Colloquy.Engine.TypedInput

/-!
# Typed input, line by line

What is left of the input is a row of lines, and an attempt takes the first of them off
(`attempt_cons`). The lines behind it stay as they are, so they are the lines that later attempts
take (`lines_flatten_of_append`). A text without a newline character is one line of its bytes
(`newline_not_mem_utf8`).
-/

namespace Colloquy

open Text

namespace Text

theorem takeLine?_of_lines_cons {bytes line : List UInt8} {rest : List (List UInt8)}
    (h : lines bytes = line :: rest) : takeLine? bytes = some (line, rest.flatten) := by
  cases htake : takeLine? bytes with
  | none =>
    rw [takeLine?_eq_none_iff.mp htake] at h
    cases h
  | some taken =>
    obtain ⟨first, after⟩ := taken
    have hlines := lines_of_takeLine? htake
    rw [h, List.cons.injEq] at hlines
    obtain ⟨rfl, rfl⟩ := hlines
    rw [lines_flatten]

theorem lines_flatten_of_cons {bytes line : List UInt8} {rest : List (List UInt8)}
    (h : lines bytes = line :: rest) : lines rest.flatten = rest := by
  have hlines := lines_of_takeLine? (takeLine?_of_lines_cons h)
  rw [h, List.cons.injEq] at hlines
  exact hlines.2.symm

/-- Lines at the end of an input are the lines of their bytes. -/
theorem lines_flatten_of_append {bytes : List UInt8} {before after : List (List UInt8)}
    (h : lines bytes = before ++ after) : lines after.flatten = after := by
  induction before generalizing bytes with
  | nil =>
    rw [List.nil_append] at h
    rw [← h, lines_flatten]
  | cons line before ih =>
    rw [List.cons_append] at h
    exact ih (lines_flatten_of_cons h)

/-- Only the last line may be without a newline. -/
theorem length_lines_le (bytes : List UInt8) :
    (lines bytes).length ≤ bytes.count newline + 1 := by
  induction bytes with
  | nil => exact Nat.zero_le _
  | cons b bytes ih =>
    rw [lines]
    split
    · next hb =>
      rw [hb, List.count_cons_self, List.length_cons]
      exact Nat.succ_le_succ ih
    · next hb =>
      rw [List.count_cons_of_ne hb]
      rcases hrest : lines bytes with _ | ⟨line, rest⟩
      · exact Nat.succ_le_succ (Nat.zero_le _)
      · rw [hrest] at ih
        exact ih

/-! ## Texts as lines -/

theorem ne_newline_of_le {n : Nat} (hlow : 0x80 ≤ n) (hn : n < 256) : newline ≠ UInt8.ofNat n := by
  intro h
  have hcode := congrArg UInt8.toNat h
  have hten : newline.toNat = 10 := rfl
  rw [UInt8.toNat_ofNat_of_lt' hn] at hcode
  omega

/-- A character outside ASCII is written in bytes outside ASCII, so none of them ends a line. -/
theorem eq_newline_of_mem_encodeChar {c : Char} (h : newline ∈ String.utf8EncodeChar c) :
    c = '\n' := by
  have hback : Char.ofNat c.val.toNat = c := Char.ofNat_toNat c
  simp only [String.utf8EncodeChar] at h
  generalize c.val.toNat = v at h hback
  by_cases hascii : v ≤ 127
  · rw [if_pos hascii, List.mem_singleton] at h
    have hcode := congrArg UInt8.toNat h
    have hv : v < 256 := by omega
    rw [UInt8.toNat_ofNat_of_lt' hv] at hcode
    rw [← hback, ← hcode]
    rfl
  · have htail (n : Nat) : newline ≠ UInt8.ofNat (n % 64 + 128) :=
      ne_newline_of_le (by omega) (by omega)
    have htwo : newline ≠ UInt8.ofNat (v / 64 % 32 + 192) :=
      ne_newline_of_le (by omega) (by omega)
    have hthree : newline ≠ UInt8.ofNat (v / 4096 % 16 + 224) :=
      ne_newline_of_le (by omega) (by omega)
    have hfour : newline ≠ UInt8.ofNat (v / 262144 % 8 + 240) :=
      ne_newline_of_le (by omega) (by omega)
    rw [if_neg hascii] at h
    split at h
    · simp only [List.mem_cons, htwo, htail, List.not_mem_nil, or_self] at h
    · split at h
      · simp only [List.mem_cons, hthree, htail, List.not_mem_nil, or_self] at h
      · simp only [List.mem_cons, hfour, htail, List.not_mem_nil, or_self] at h

theorem newline_not_mem_utf8 {text : String} (h : '\n' ∉ text.toList) : newline ∉ utf8 text := by
  intro hmem
  obtain ⟨c, hc, hbyte⟩ := List.mem_flatMap.mp hmem
  exact h (eq_newline_of_mem_encodeChar hbyte ▸ hc)

theorem takeLine?_append_newline {bytes : List UInt8} (h : newline ∉ bytes) (rest : List UInt8) :
    takeLine? (bytes ++ newline :: rest) = some (bytes ++ [newline], rest) := by
  induction bytes with
  | nil => rfl
  | cons b bytes ih =>
    have hb : b ≠ newline := fun hb => h (hb ▸ List.mem_cons_self)
    have hrest : newline ∉ bytes := fun hmem => h (List.mem_cons_of_mem _ hmem)
    rw [List.cons_append, takeLine?_cons hb, ih hrest]
    rfl

/-- Bytes without a newline are one line, unless there are none. -/
theorem lines_of_newline_not_mem {bytes : List UInt8} (h : newline ∉ bytes) (hne : bytes ≠ []) :
    lines bytes = [bytes] := by
  induction bytes with
  | nil => exact absurd rfl hne
  | cons b bytes ih =>
    have hb : b ≠ newline := fun hb => h (hb ▸ List.mem_cons_self)
    have hrest : newline ∉ bytes := fun hmem => h (List.mem_cons_of_mem _ hmem)
    rw [lines, if_neg hb]
    cases bytes with
    | nil => rfl
    | cons => rw [ih hrest (List.cons_ne_nil _ _)]

theorem utf8_append_newline (text : String) : utf8 (text ++ "\n") = utf8 text ++ [newline] := by
  rw [utf8_append]
  rfl

end Text

namespace TypedInput

variable {input : TypedInput} {g : Grammar}

/-- With a grammar loaded, an attempt takes the next line off the input and answers as the grammar
does on that line. -/
theorem attempt_cons (hloaded : input.loaded = some g) {line : List UInt8}
    {rest : List (List UInt8)} (hlines : lines input.unread = line :: rest)
    (hread : input.ending = .closed ∨ newline ∈ line) :
    input.attempt =
      (.ok (g.recognize (decodeUtf8 line)), { input with unread := rest.flatten }) := by
  simp only [attempt, hloaded, readLine, takeLine?_of_lines_cons hlines, if_pos hread]

/-- An attempt that does not fail has taken the next line off the input. -/
theorem attempt_eq_ok (hloaded : input.loaded = some g) {heard : Option Recognition}
    {after : TypedInput} (h : input.attempt = (.ok heard, after)) :
    ∃ line rest, lines input.unread = line :: lines rest ∧
      heard = g.recognize (decodeUtf8 line) ∧ after = { input with unread := rest } := by
  simp only [attempt, hloaded, readLine] at h
  cases htake : takeLine? input.unread with
  | none =>
    rw [htake] at h
    cases h
  | some taken =>
    obtain ⟨line, rest⟩ := taken
    rw [htake] at h
    dsimp only at h
    split at h
    · next hread =>
      split at hread
      · cases hread
        cases h
        exact ⟨line, rest, lines_of_takeLine? htake, rfl, by rw [hloaded]⟩
      · cases hread
    · cases h

/-- A text on a line of its own is held against the grammar, with the newline that ends it. -/
theorem attempt_of_text (hloaded : input.loaded = some g) {text : String}
    (htext : '\n' ∉ text.toList) {rest : List UInt8}
    (hunread : input.unread = utf8 text ++ newline :: rest) :
    input.attempt = (.ok (g.recognize (text ++ "\n")), { input with unread := rest }) := by
  have htake := takeLine?_append_newline (newline_not_mem_utf8 htext) rest
  have hlines := lines_of_takeLine? htake
  rw [← hunread] at hlines
  have hread : newline ∈ utf8 text ++ [newline] := List.mem_append_right _ (List.mem_singleton_self _)
  rw [attempt_cons hloaded hlines (Or.inr hread), ← utf8_append_newline, decodeUtf8_utf8,
    lines_flatten]

/-- A text at the end of the input is held against the grammar as it is. -/
theorem attempt_of_last_text (hloaded : input.loaded = some g) (hending : input.ending = .closed)
    {text : String} (htext : '\n' ∉ text.toList) (hne : utf8 text ≠ [])
    (hunread : input.unread = utf8 text) :
    input.attempt = (.ok (g.recognize text), { input with unread := [] }) := by
  have hlines := lines_of_newline_not_mem (newline_not_mem_utf8 htext) hne
  rw [← hunread] at hlines
  rw [attempt_cons hloaded hlines (Or.inl hending), hunread, decodeUtf8_utf8, List.flatten_nil]

end TypedInput

end Colloquy
