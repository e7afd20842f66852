import Colloquy.Proofs.Display.Filling
import Colloquy.Proofs.Dialog.Answers
import Colloquy.Proofs.Dialog.Remarks

/-!
# The color in force

Of every moment of a record of requests it can be told which color is in force: the one that was
settled last (`InForce`), that is, heard as the favorite color in a turn that went on to tell what it
heard (`Settles`). A console shows each line in the color that is in force when it is shown, so the
record determines the bytes that are written (`Inked`).

* `JustHeard.unique`: the record tells in which turn something was heard, and what.
* `settles_said_iff`: a color is settled at the end of a line, or not at all.
* `InForce.unique`, `Inked.unique`: the color in force and the bytes are determined.
-/

namespace Colloquy

open Text

/-! ## What was heard just now -/

theorem Turn.name_injective : Function.Injective Turn.name := by
  intro a b h
  cases a <;> cases b <;> first | rfl | exact absurd h (by decide)

/-- The last event of a record is one of those that came last. -/
theorem last_mem_of_append_eq {trace calls before : List Event} {last : Event} (hne : calls ≠ [])
    (h : trace ++ calls = before ++ [last]) : last ∈ calls := by
  have hlast := congrArg List.getLast? h
  rw [List.getLast?_append_of_ne_nil _ hne, List.getLast?_concat] at hlast
  exact List.mem_of_getLast? hlast

/-- In this turn this was heard, and nothing happened since. -/
def JustHeard (turn : Turn) (heard : Recognition) (trace : List Event) : Prop :=
  ∃ before timeout silent, trace = before ++
    listenCalls turn.grammar timeout silent (.ok (some heard)) (.ok ())

namespace JustHeard

variable {turn other : Turn} {heard again : Recognition} {trace : List Event}

/-- Before the attempt that recognized the phrase, the grammar of the turn was loaded. -/
theorem exists_holds (h : JustHeard turn heard trace) :
    ∃ before timeout, (∀ name, Holds name before ↔ turn.name = name) ∧
      trace = before ++ [.attempted timeout (.ok (some heard)), .unloaded (.ok ())] := by
  obtain ⟨before, timeout, silent, rfl⟩ := h
  refine ⟨before ++ .loaded turn.name (.ok ()) ::
    List.replicate silent (.attempted timeout (.ok none)), timeout,
    fun name => holds_silence silent, ?_⟩
  rw [List.append_assoc, List.cons_append]
  rfl

theorem unique (h : JustHeard turn heard trace) (h' : JustHeard other again trace) :
    turn = other ∧ heard = again := by
  obtain ⟨before, timeout, hholds, rfl⟩ := h.exists_holds
  obtain ⟨before', timeout', hholds', hsplit⟩ := h'.exists_holds
  obtain ⟨rfl, hlast⟩ := List.append_inj' hsplit rfl
  refine ⟨Turn.name_injective ((hholds _).mp ((hholds' _).mpr rfl)), ?_⟩
  injection hlast with hattempt
  injection hattempt with _ hanswer
  injection hanswer with hanswer
  injection hanswer

/-- Only an unload can be the end of it. -/
theorem not_append {calls : List Event} (hne : calls ≠ [])
    (hcalls : ∀ e ∈ calls, ∀ freed, e ≠ .unloaded freed) :
    ¬ JustHeard turn heard (trace ++ calls) := by
  intro h
  obtain ⟨before, timeout, -, hsplit⟩ := h.exists_holds
  rw [List.append_cons before] at hsplit
  exact hcalls _ (last_mem_of_append_eq hne hsplit) _ rfl

/-- Listening ends with what was heard if its last attempt and its unload succeed. -/
theorem of_listenCalls {g : Grammar} {timeout : Duration} {silent : Nat}
    {answer : Except EngineFailure (Option Recognition)} {freed : Except EngineFailure Unit}
    (h : JustHeard turn heard (trace ++ listenCalls g timeout silent answer freed)) :
    answer = .ok (some heard) ∧ freed = .ok () := by
  obtain ⟨before, timeout', -, hsplit⟩ := h.exists_holds
  rw [listenCalls, ← List.cons_append, ← List.append_assoc] at hsplit
  obtain ⟨-, hlast⟩ := List.append_inj' hsplit rfl
  injection hlast with hattempt hlast
  injection hlast with hunload
  injection hattempt with _ hanswer
  injection hunload with hfreed
  exact ⟨hanswer, hfreed⟩

end JustHeard

/-! ## The color in force -/

/-- A color was settled just now: it was heard as the favorite color, and this has been told. -/
def Settles (trace : List Event) (color : Color) : Prop :=
  ∃ before heard, JustHeard .favoriteColor heard before ∧ heard.NamesColor color ∧
    trace = before ++ (Speech.plain heard.told).said

theorem settles_said_iff {trace : List Event} {speech : Speech} {color : Color}
    {answer : Except EngineFailure Unit} :
    Settles (trace ++ [.wrote speech.transcript (.ok ()), .spoke speech answer]) color ↔
      answer = .ok () ∧ ∃ heard, speech = .plain heard.told ∧
        JustHeard .favoriteColor heard trace ∧ heard.NamesColor color := by
  constructor
  · intro h
    obtain ⟨before, heard, hheard, hnames, hsplit⟩ := h
    obtain ⟨rfl, hlast⟩ := List.append_inj' hsplit rfl
    injection hlast with _ hlast
    injection hlast with hspoke
    injection hspoke with hspeech hanswer
    exact ⟨hanswer, heard, hspeech, hheard, hnames⟩
  · intro h
    obtain ⟨rfl, heard, rfl, hheard, hnames⟩ := h
    exact ⟨trace, heard, hheard, hnames, rfl⟩

namespace Settles

variable {trace : List Event} {a b color : Color}

theorem exists_concat (h : Settles trace color) :
    ∃ before speech answer, trace = before ++ [.spoke speech answer] := by
  obtain ⟨before, heard, -, -, rfl⟩ := h
  exact ⟨before ++ [_], _, _, List.append_cons _ _ _⟩

theorem ne_nil (h : Settles trace color) : trace ≠ [] := by
  obtain ⟨before, speech, answer, rfl⟩ := h.exists_concat
  exact List.concat_ne_nil _ _

theorem unique (h : Settles trace a) (h' : Settles trace b) : a = b := by
  obtain ⟨before, heard, hheard, hnames, rfl⟩ := h
  obtain ⟨-, again, hspeech, hagain, hnames'⟩ := settles_said_iff.mp h'
  obtain ⟨-, rfl⟩ := hheard.unique hagain
  exact hnames.unique hnames'

end Settles

/-- No color is settled in the course of `calls`, behind `trace`. -/
def Quiet (trace calls : List Event) : Prop :=
  ∀ first rest, calls = first ++ rest → first ≠ [] → ∀ color, ¬ Settles (trace ++ first) color

namespace Quiet

variable {trace calls more : List Event}

theorem nil : Quiet trace [] := by
  intro first rest h hne
  exact absurd (List.append_eq_nil_iff.mp h.symm).1 hne

theorem append (h : Quiet trace calls) (hmore : Quiet (trace ++ calls) more) :
    Quiet trace (calls ++ more) := by
  intro first rest hsplit hne color
  -- The moment is behind `calls`, at their end, or before it.
  obtain ⟨kept, rfl, hrest⟩ | ⟨kept, hcalls, -⟩ := List.append_eq_append_iff.mp hsplit
  · rcases kept with _ | ⟨e, kept⟩
    · rw [List.append_nil] at hne ⊢
      exact h calls [] (List.append_nil _).symm hne color
    · rw [← List.append_assoc]
      exact hmore _ rest hrest (List.cons_ne_nil _ _) color
  · exact h first kept hcalls hne color

theorem of_unspoken (h : ∀ e ∈ calls, ∀ speech answer, e ≠ .spoke speech answer) :
    Quiet trace calls := by
  intro first rest hsplit hne color hsettles
  obtain ⟨before, speech, answer, htrace⟩ := hsettles.exists_concat
  have hmem : .spoke speech answer ∈ calls :=
    hsplit ▸ List.mem_append_left _ (last_mem_of_append_eq hne htrace)
  exact h _ hmem speech answer rfl

theorem singleton {e : Event} (h : ∀ color, ¬ Settles (trace ++ [e]) color) : Quiet trace [e] := by
  intro first rest hsplit hne
  cases first with
  | nil => exact absurd rfl hne
  | cons first more =>
    obtain ⟨rfl, hrest⟩ := List.cons.inj hsplit
    obtain ⟨rfl, -⟩ := List.append_eq_nil_iff.mp hrest.symm
    exact h

/-- A line that is shown and spoken settles a color at its end or not at all. -/
theorem said {speech : Speech} {answer : Except EngineFailure Unit}
    (h : ∀ color, ¬ Settles (trace ++ [.wrote speech.transcript (.ok ()), .spoke speech answer])
      color) : Quiet trace [.wrote speech.transcript (.ok ()), .spoke speech answer] := by
  have hwrote : Quiet trace [.wrote speech.transcript (.ok ())] :=
    .of_unspoken fun e he => by rw [List.mem_singleton.mp he]; exact nofun
  exact hwrote.append (.singleton fun color => by rw [List.append_assoc]; exact h color)

end Quiet

/-- The color in force: that which shows the one that was settled last, and none if none has been
settled. -/
inductive InForce (trace : List Event) : Option TermColor → Prop
  | usual (h : Quiet [] trace) : InForce trace none
  | settled {before after : List Event} {color : Color} (hsplit : trace = before ++ after)
    (h : Settles before color) (hquiet : Quiet before after) : InForce trace (some color.style)

namespace InForce

variable {trace calls : List Event} {color : Color} {highlight other : Option TermColor}

theorem append (h : InForce trace highlight) (hquiet : Quiet trace calls) :
    InForce (trace ++ calls) highlight := by
  cases h with
  | usual h => exact .usual (h.append hquiet)
  | settled hsplit h hkept =>
    subst hsplit
    exact .settled (List.append_assoc _ _ _) h (hkept.append hquiet)

theorem of_settles (h : Settles trace color) : InForce trace (some color.style) :=
  .settled (List.append_nil _).symm h .nil

/-- A color that was settled with nothing settled since is the one in force. -/
theorem eq_some (h : InForce trace highlight) {before after : List Event}
    (hsplit : trace = before ++ after) (hsettles : Settles before color)
    (hquiet : Quiet before after) : highlight = some color.style := by
  cases h with
  | usual h => exact absurd hsettles (h before after hsplit hsettles.ne_nil color)
  | @settled earlier later _ hsplit' hsettles' hquiet' =>
    rw [hsplit] at hsplit'
    -- Of the two moments the earlier one is not the last, unless they are the same.
    obtain ⟨between, rfl, hafter⟩ | ⟨between, rfl, hlater⟩ :=
      List.append_eq_append_iff.mp hsplit'
    · rcases between with _ | ⟨e, between⟩
      · rw [List.append_nil] at hsettles'
        rw [hsettles'.unique hsettles]
      · exact absurd hsettles' (hquiet _ later hafter (List.cons_ne_nil _ _) _)
    · rcases between with _ | ⟨e, between⟩
      · rw [List.append_nil] at hsettles
        rw [hsettles'.unique hsettles]
      · exact absurd hsettles (hquiet' _ after hlater (List.cons_ne_nil _ _) color)

theorem unique (h : InForce trace highlight) (h' : InForce trace other) : highlight = other := by
  cases h' with
  | settled hsplit hsettles hquiet => exact h.eq_some hsplit hsettles hquiet
  | usual h' =>
    cases h with
    | usual => rfl
    | settled hsplit hsettles _ =>
      exact absurd hsettles (h' _ _ hsplit hsettles.ne_nil _)

end InForce

/-! ## What is written -/

section

variable [Terminal TermColor]

/-- The bytes of the lines that were shown, one after the other, each in the color that was in force
when it was. -/
inductive Inked : List Event → List UInt8 → Prop
  | blank : Inked [] []
  | line {trace : List Event} {bytes : List UInt8} {line : String} {highlight : Option TermColor}
    (h : Inked trace bytes) (hforce : InForce trace highlight) :
    Inked (trace ++ [.wrote line (.ok ())]) (bytes ++ Console.encoding highlight line)
  | other {trace : List Event} {bytes : List UInt8} {e : Event} (h : Inked trace bytes)
    (he : ∀ line answer, e ≠ .wrote line answer) : Inked (trace ++ [e]) bytes

namespace Inked

variable {trace calls : List Event} {bytes others : List UInt8}

theorem append (h : Inked trace bytes)
    (hcalls : ∀ e ∈ calls, ∀ line answer, e ≠ .wrote line answer) :
    Inked (trace ++ calls) bytes := by
  induction calls generalizing trace with
  | nil => rwa [List.append_nil]
  | cons e calls ih =>
    obtain ⟨he, hcalls⟩ := List.forall_mem_cons.mp hcalls
    rw [List.append_cons]
    exact ih (h.other he) hcalls

theorem said (h : Inked trace bytes) {highlight : Option TermColor}
    (hforce : InForce trace highlight) (speech : Speech) (answer : Except EngineFailure Unit) :
    Inked (trace ++ [.wrote speech.transcript (.ok ()), .spoke speech answer])
      (bytes ++ Console.encoding highlight speech.transcript) := by
  rw [List.append_cons]
  exact (h.line hforce).other nofun

theorem unique (h : Inked trace bytes) (h' : Inked trace others) : bytes = others := by
  induction h generalizing others with
  | blank =>
    generalize hnil : ([] : List Event) = trace at h'
    cases h' with
    | blank => rfl
    | line | other => exact absurd hnil.symm (List.concat_ne_nil _ _)
  | @line trace bytes line highlight _ hforce ih =>
    generalize hsplit : trace ++ [Event.wrote line (.ok ())] = whole at h'
    cases h' with
    | blank => exact absurd hsplit (List.concat_ne_nil _ _)
    | line h' hforce' =>
      obtain ⟨rfl, hlast⟩ := List.append_inj' hsplit rfl
      cases hlast
      rw [ih h', hforce.unique hforce']
    | other h' he =>
      obtain ⟨-, hlast⟩ := List.append_inj' hsplit rfl
      exact absurd (List.singleton_inj.mp hlast).symm (he _ _)
  | @other trace bytes e _ he ih =>
    generalize hsplit : trace ++ [e] = whole at h'
    cases h' with
    | blank => exact absurd hsplit (List.concat_ne_nil _ _)
    | line =>
      obtain ⟨-, hlast⟩ := List.append_inj' hsplit rfl
      exact absurd (List.singleton_inj.mp hlast) (he _ _)
    | other h' =>
      obtain ⟨rfl, -⟩ := List.append_inj' hsplit rfl
      exact ih h'

end Inked

end

end Colloquy
