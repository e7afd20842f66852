import Colloquy.Text.Blank
import Colloquy.Text.Lowercase

/-!
# Words

A text is a row of words held apart by blanks. Two texts say the same when they agree word by word
in lower case; the normal form of a text is the one spelling shared by all texts that say the same.

* `isWord_of_mem_words`: each word of a text is a word, that is not empty and without a blank.
* `words_spaced`: words written one space apart are read back unchanged.
* `trimmed_spaced`: they have no blanks at the ends.
-/

namespace Colloquy.Text

/-! ## Splitting and joining -/

/-- The longest runs of characters that are not blank, in order. -/
def splitWords (cs : List Char) : List (List Char) :=
  (cs.splitOnP isBlank).filter (!·.isEmpty)

/-- The words of a text. -/
def words (text : String) : List String := (splitWords text.toList).map String.ofList

/-- Words written one space apart. -/
def spaced (ws : List String) : String := " ".intercalate ws

/-- The text without the blanks at its two ends. -/
def trimmed (text : String) : String :=
  String.ofList ((text.toList.dropWhile isBlank).reverse.dropWhile isBlank).reverse

/-! ## Comparing -/

/-- The words of a text as they are compared: each in lower case. -/
def loweredWords (text : String) : List String := (words text).map lowercase

/-- The lowered words of a text, one space apart. -/
def normalForm (text : String) : String := spaced (loweredWords text)

/-! ## Words read back -/

/-- The text `w` is one word. -/
def IsWord (w : String) : Prop := w.toList ≠ [] ∧ ∀ c ∈ w.toList, isBlank c = false

theorem not_isBlank_of_mem_splitOnP {cs w : List Char} (h : w ∈ cs.splitOnP isBlank) :
    ∀ c ∈ w, isBlank c = false := by
  induction cs generalizing w with
  | nil => simp_all
  | cons c cs ih =>
    rw [List.splitOnP_cons_eq_if_modifyHead] at h
    split at h
    · rcases List.mem_cons.1 h with rfl | h
      · simp
      · exact ih h
    · cases hs : cs.splitOnP isBlank with
      | nil => simp [hs] at h
      | cons v vs =>
        rw [hs, List.modifyHead_cons] at h
        rcases List.mem_cons.1 h with rfl | h
        · have := ih (w := v) (by simp [hs])
          simp_all
        · exact ih (by simp [hs, h])

theorem isWord_of_mem_words {text w : String} (h : w ∈ words text) : IsWord w := by
  obtain ⟨cs, hcs, rfl⟩ := List.mem_map.1 h
  obtain ⟨hmem, hne⟩ := List.mem_filter.1 hcs
  refine ⟨by simpa using hne, ?_⟩
  simpa using not_isBlank_of_mem_splitOnP hmem

theorem splitWords_append_blank (xs ys : List Char) {b : Char} (hb : isBlank b = true) :
    splitWords (xs ++ b :: ys) = splitWords xs ++ splitWords ys := by
  simp [splitWords, List.splitOnP_append_cons _ _ hb]

theorem splitWords_word {w : List Char} (hne : w ≠ []) (hw : ∀ c ∈ w, isBlank c = false) :
    splitWords w = [w] := by
  simp [splitWords, List.splitOnP_eq_singleton hw, hne]

theorem splitWords_intercalate (texts : List (List Char)) :
    splitWords ([' '].intercalate texts) = texts.flatMap splitWords := by
  induction texts with
  | nil => rfl
  | cons text rest ih =>
    cases rest with
    | nil => simp
    | cons next rest =>
      rw [List.intercalate_cons_cons, List.append_assoc, List.singleton_append,
        splitWords_append_blank _ _ isBlank_space, ih]
      rfl

/-- The words of texts written one space apart are their words in order. -/
theorem words_spaced_texts (texts : List String) : words (spaced texts) = texts.flatMap words := by
  have hspace : " ".toList = [' '] := rfl
  rw [words, spaced, String.toList_intercalate, hspace, splitWords_intercalate, List.map_flatMap,
    List.flatMap_map]
  rfl

theorem words_of_isWord {w : String} (h : IsWord w) : words w = [w] := by
  rw [words, splitWords_word h.1 h.2, List.map_singleton, String.ofList_toList]

theorem words_spaced {ws : List String} (h : ∀ w ∈ ws, IsWord w) : words (spaced ws) = ws := by
  rw [words_spaced_texts]
  induction ws with
  | nil => rfl
  | cons w ws ih =>
    have hw := words_of_isWord (h w List.mem_cons_self)
    have hrest := ih fun v hv => h v (List.mem_cons_of_mem _ hv)
    rw [List.flatMap_cons, hw, hrest, List.singleton_append]

/-! ## Words at the ends of a text -/

theorem dropWhile_isBlank {cs : List Char} (h : ∀ c ∈ cs.head?, isBlank c = false) :
    cs.dropWhile isBlank = cs := by
  cases cs with
  | nil => rfl
  | cons c cs =>
    have hc : ¬ isBlank c = true := by simpa using h c
    exact List.dropWhile_cons_of_neg hc

theorem trimmed_eq_self {text : String} (hfirst : ∀ c ∈ text.toList.head?, isBlank c = false)
    (hlast : ∀ c ∈ text.toList.getLast?, isBlank c = false) : trimmed text = text := by
  have hend : text.toList.reverse.dropWhile isBlank = text.toList.reverse :=
    dropWhile_isBlank (by rwa [List.head?_reverse])
  rw [trimmed, dropWhile_isBlank hfirst, hend, List.reverse_reverse, String.ofList_toList]

/-- Words written one space apart begin and end with a letter. -/
theorem not_isBlank_ends {ws : List (List Char)}
    (h : ∀ w ∈ ws, w ≠ [] ∧ ∀ c ∈ w, isBlank c = false) :
    (∀ c ∈ ([' '].intercalate ws).head?, isBlank c = false) ∧
      ∀ c ∈ ([' '].intercalate ws).getLast?, isBlank c = false := by
  induction ws with
  | nil => exact ⟨nofun, nofun⟩
  | cons w ws ih =>
    obtain ⟨hne, hw⟩ := h w List.mem_cons_self
    have hrest := ih fun v hv => h v (List.mem_cons_of_mem _ hv)
    cases ws with
    | nil =>
      rw [List.intercalate_singleton]
      exact ⟨fun c hc => hw c (List.mem_of_mem_head? hc),
        fun c hc => hw c (List.mem_of_mem_getLast? hc)⟩
    | cons v ws =>
      have hfirst : (w ++ [' '] ++ [' '].intercalate (v :: ws)).head? = w.head? := by
        cases w with
        | nil => exact absurd rfl hne
        | cons => rfl
      have hv : v ≠ [] := (h v (List.mem_cons_of_mem _ List.mem_cons_self)).1
      have hlater : [' '].intercalate (v :: ws) ≠ [] := by
        cases ws with
        | nil => simpa using hv
        | cons => simp [List.intercalate_cons_cons]
      have hlast : (w ++ [' '] ++ [' '].intercalate (v :: ws)).getLast? =
          ([' '].intercalate (v :: ws)).getLast? := by
        rw [List.getLast?_append, List.getLast?_eq_some_getLast hlater, Option.some_or]
      rw [List.intercalate_cons_cons, hfirst, hlast]
      exact ⟨fun c hc => hw c (List.mem_of_mem_head? hc), hrest.2⟩

/-- Words written one space apart have no blanks at the ends. -/
theorem trimmed_spaced {ws : List String} (h : ∀ w ∈ ws, IsWord w) :
    trimmed (spaced ws) = spaced ws := by
  have hspace : " ".toList = [' '] := rfl
  have hws : ∀ w ∈ ws.map String.toList, w ≠ [] ∧ ∀ c ∈ w, isBlank c = false := by
    intro w hw
    obtain ⟨v, hv, rfl⟩ := List.mem_map.1 hw
    exact h v hv
  have hends := not_isBlank_ends hws
  rw [← hspace, ← String.toList_intercalate] at hends
  exact trimmed_eq_self hends.1 hends.2

end Colloquy.Text
