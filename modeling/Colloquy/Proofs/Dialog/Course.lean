import Colloquy.Dialog.Basic
import Colloquy.Proofs.Session.Ends
import Colloquy.Proofs.Session.OneGrammar

/-!
# The course of a dialog

The requests of a dialog, to whichever of its engine, its voice and its display, are a row of
passages that go well: a line that is shown and spoken, a phrase that is heard, a highlight. The
last passage may break off at a failure, or still be listening (`Course`).

* `Course.filterMap_eq`: what is to be spoken is what was shown.
* `Course.placed`, `Placed.apart`: nothing is said while a grammar is loaded.
* `Course.failStop`: a failure is the end.
-/

namespace Colloquy

/-! ## Kinds of requests -/

namespace Event

/-- The request failed. -/
def Failed : Event → Prop
  | .loaded _ (.error _) | .attempted _ (.error _) | .unloaded (.error _) | .spoke _ (.error _)
  | .wrote _ (.error _) => True
  | _ => False

/-- The transcript of what was to be spoken. -/
def spoken? : Event → Option String
  | .spoke speech _ => some speech.transcript
  | _ => none

/-- The line that was shown. -/
def shown? : Event → Option String
  | .wrote line (.ok ()) => some line
  | _ => none

/-- A line was to be shown or spoken. -/
def IsSaying : Event → Prop
  | .wrote _ _ | .spoke _ _ => True
  | _ => False

end Event

/-! ## Three properties of a record -/

/-- What was to be spoken is what was shown, in the same order, and each line was shown right before
it was to be spoken. -/
def Mirrored (trace : List Event) : Prop :=
  trace.filterMap Event.spoken? = trace.filterMap Event.shown? ∧
    ∀ before speech answer after, trace = before ++ .spoke speech answer :: after →
      ∃ earlier, before = earlier ++ [.wrote speech.transcript (.ok ())]

/-- Between a load that succeeded and the unload that follows it, no line is shown or spoken. -/
def Apart (trace : List Event) : Prop :=
  ∀ before name between e after,
    trace = before ++ .loaded name (.ok ()) :: (between ++ e :: after) → e.IsSaying →
    ∃ freed, .unloaded freed ∈ between

/-- No request follows one that failed, except for one unload behind a failed attempt. -/
def FailStop (calls : List Event) : Prop :=
  ∀ before e after, calls = before ++ e :: after → e.Failed →
    ((∃ timeout cause, e = .attempted timeout (.error cause)) ∧
        ∃ freed, after = [.unloaded freed]) ∨
      ((∀ timeout cause, e ≠ .attempted timeout (.error cause)) ∧ after = [])

/-! ## The course of a dialog -/

/-- Requests that all succeed: a line that is shown and spoken, a phrase that is heard, a
highlight. -/
inductive Smooth : List Event → Prop
  | said (speech : Speech) :
    Smooth [.wrote speech.transcript (.ok ()), .spoke speech (.ok ())]
  | heard (g : Grammar) (timeout : Duration) (silent : Nat) (heard : Recognition) :
    Smooth (listenCalls g timeout silent (.ok (some heard)) (.ok ()))
  | highlighted (color : Option TermColor) : Smooth [.highlighted color]

/-- Requests that break off at a failure: a line that is not shown, or shown and not spoken, a
grammar that is refused, and listening in which an attempt or the unload fails. -/
inductive Broken : List Event → Prop
  | unshown (line : String) (e : WriteFailure) : Broken [.wrote line (.error e)]
  | unspoken (speech : Speech) (e : EngineFailure) :
    Broken [.wrote speech.transcript (.ok ()), .spoke speech (.error e)]
  | refused (name : String) (e : EngineFailure) : Broken [.loaded name (.error e)]
  | unheard (g : Grammar) (timeout : Duration) (silent : Nat) (e : EngineFailure)
    (freed : Except EngineFailure Unit) : Broken (listenCalls g timeout silent (.error e) freed)
  | unfreed (g : Grammar) (timeout : Duration) (silent : Nat) (heard : Recognition)
    (e : EngineFailure) :
    Broken (listenCalls g timeout silent (.ok (some heard)) (.error e))

/-- The requests of a part of a dialog, from a session without an active grammar: smooth passages,
and at the end one that breaks off if the part failed, or one that is still listening. -/
inductive Course : Option Halt → List Event → Prop
  | done : Course none []
  | next {halt : Option Halt} {calls more : List Event} (h : Smooth calls)
    (hmore : Course halt more) : Course halt (calls ++ more)
  | failed {calls : List Event} (cause : Error) (h : Broken calls) :
    Course (some (.failed cause)) calls
  | listening (g : Grammar) (timeout : Duration) (patience : Nat) :
    Course (some .listening)
      (.loaded g.name (.ok ()) :: List.replicate patience (.attempted timeout (.ok none)))

theorem Course.of_smooth {calls : List Event} (h : Smooth calls) : Course none calls := by
  simpa using Course.next h .done

theorem Course.append {calls more : List Event} {halt : Option Halt} (h : Course none calls)
    (hmore : Course halt more) : Course halt (calls ++ more) := by
  generalize hnone : (none : Option Halt) = ended at h
  induction h with
  | done => exact hmore
  | next hcalls _ ih =>
    rw [List.append_assoc]
    exact .next hcalls (ih hnone)
  | failed | listening => cases hnone

/-- A failure may be put down to a turn. -/
theorem Course.inTurn {calls : List Event} {halt : Option Halt} (turn : Turn)
    (h : Course halt calls) : Course (halt.map (Halt.inTurn turn)) calls := by
  induction h with
  | done => exact .done
  | next hcalls _ ih => exact .next hcalls ih
  | failed cause hcalls => exact .failed (.turn turn cause) hcalls
  | listening g timeout patience => exact .listening g timeout patience

/-! ### The voice repeats what is shown -/

/-- Listening says nothing. -/
theorem not_isSaying_of_mem_listenCalls {g : Grammar} {timeout : Duration} {silent : Nat}
    {answer : Except EngineFailure (Option Recognition)} {freed : Except EngineFailure Unit}
    {e : Event} (he : e ∈ listenCalls g timeout silent answer freed) : ¬ e.IsSaying := by
  simp only [listenCalls, List.mem_cons, List.mem_append, List.mem_replicate, List.not_mem_nil,
    or_false] at he
  obtain rfl | ⟨-, rfl⟩ | rfl | rfl := he <;> exact id

theorem not_isSaying_of_mem_listening {name : String} {timeout : Duration} {patience : Nat}
    {e : Event} (he : e ∈ .loaded name (.ok ()) :: List.replicate patience (.attempted timeout (.ok none))) :
    ¬ e.IsSaying := by
  rw [List.mem_cons, List.mem_replicate] at he
  obtain rfl | ⟨-, rfl⟩ := he <;> exact id

theorem filterMap_of_unsaid {calls : List Event} (h : ∀ e ∈ calls, ¬ e.IsSaying) :
    calls.filterMap Event.spoken? = calls.filterMap Event.shown? := by
  have hnone : ∀ e : Event, ¬ e.IsSaying → e.spoken? = none ∧ e.shown? = none := by
    intro e he
    cases e with
    | wrote | spoke => exact absurd trivial he
    | loaded | attempted | unloaded | highlighted => exact ⟨rfl, rfl⟩
  rw [List.filterMap_eq_nil_iff.mpr fun e he => (hnone e (h e he)).1,
    List.filterMap_eq_nil_iff.mpr fun e he => (hnone e (h e he)).2]

theorem Course.filterMap_eq {calls : List Event} {halt : Option Halt} (h : Course halt calls) :
    calls.filterMap Event.spoken? = calls.filterMap Event.shown? := by
  induction h with
  | done => rfl
  | next hcalls _ ih =>
    rw [List.filterMap_append, List.filterMap_append, ih]
    congr 1
    cases hcalls with
    | said | highlighted => rfl
    | heard => exact filterMap_of_unsaid fun _ => not_isSaying_of_mem_listenCalls
  | failed cause hcalls =>
    cases hcalls with
    | unshown | unspoken | refused => rfl
    | unheard | unfreed => exact filterMap_of_unsaid fun _ => not_isSaying_of_mem_listenCalls
  | listening => exact filterMap_of_unsaid fun _ => not_isSaying_of_mem_listening

/-! ### Lines have their place -/

/-- The requests `before` were made when an event had its place: lines were shown and spoken while
nothing was loaded, and what was spoken had just been shown. -/
def InPlace (before : List Event) : Event → Prop
  | .wrote _ _ => ∀ name, ¬ Holds name before
  | .spoke speech _ => (∀ name, ¬ Holds name before) ∧
    ∃ earlier, before = earlier ++ [.wrote speech.transcript (.ok ())]
  | _ => True

/-- Every event of the record had its place. -/
def Placed (trace : List Event) : Prop :=
  ∀ before e after, trace = before ++ e :: after → InPlace before e

theorem placed_nil : Placed [] := by
  intro before e after h
  exact absurd h.symm (by simp)

theorem Placed.concat {trace : List Event} {e : Event} (h : Placed trace)
    (he : InPlace trace e) : Placed (trace ++ [e]) := by
  intro before e' after hsplit
  obtain ⟨rfl, rfl, -⟩ | ⟨kept, -, hkept⟩ := split_concat hsplit
  · exact he
  · exact h before e' kept hkept

/-- What is not said is always in its place. -/
theorem Placed.append {trace calls : List Event} (h : Placed trace)
    (hcalls : ∀ e ∈ calls, ¬ e.IsSaying) : Placed (trace ++ calls) := by
  induction calls generalizing trace with
  | nil => rwa [List.append_nil]
  | cons e calls ih =>
    rw [← List.singleton_append, ← List.append_assoc]
    obtain ⟨he, hrest⟩ := List.forall_mem_cons.mp hcalls
    refine ih (h.concat ?_) hrest
    cases e with
    | wrote | spoke => exact absurd trivial he
    | loaded | attempted | unloaded | highlighted => trivial

/-- Nothing is loaded, and every event so far had its place. -/
structure Free (trace : List Event) : Prop where
  unloaded : ∀ name, ¬ Holds name trace
  placed : Placed trace

theorem free_nil : Free [] := ⟨not_holds_nil, placed_nil⟩

theorem Free.concat {trace : List Event} {e : Event} (h : Free trace)
    (hload : ∀ other, e ≠ .loaded other (.ok ())) (hunload : ∀ answer, e ≠ .unloaded answer)
    (he : InPlace trace e) : Free (trace ++ [e]) :=
  ⟨fun name => by rw [holds_concat hload hunload]; exact h.unloaded name, h.placed.concat he⟩

theorem Free.said {trace : List Event} (h : Free trace) (speech : Speech)
    (answer : Except EngineFailure Unit) :
    Free (trace ++ [.wrote speech.transcript (.ok ()), .spoke speech answer]) := by
  have hshown := h.concat (e := .wrote speech.transcript (.ok ())) nofun nofun h.unloaded
  have hspoken := hshown.concat (e := .spoke speech answer) nofun nofun
    ⟨hshown.unloaded, trace, rfl⟩
  rwa [List.append_assoc] at hspoken

/-- Listening that is over has unloaded. -/
theorem Free.listened {trace : List Event} (h : Free trace) (g : Grammar) (timeout : Duration)
    (silent : Nat) (answer : Except EngineFailure (Option Recognition)) (freed : Except EngineFailure Unit) :
    Free (trace ++ listenCalls g timeout silent answer freed) := by
  have hlast : trace ++ listenCalls g timeout silent answer freed =
      (trace ++ (.loaded g.name (.ok ()) ::
        (List.replicate silent (.attempted timeout (.ok none)) ++ [.attempted timeout answer]))) ++
        [.unloaded freed] := by
    simp [listenCalls]
  refine ⟨fun name => ?_, h.placed.append fun _ => not_isSaying_of_mem_listenCalls⟩
  rw [hlast]
  exact not_holds_concat_unloaded

theorem Free.smooth {trace calls : List Event} (h : Free trace) (hcalls : Smooth calls) :
    Free (trace ++ calls) := by
  cases hcalls with
  | said speech => exact h.said speech (.ok ())
  | heard => exact h.listened _ _ _ _ _
  | highlighted color => exact h.concat nofun nofun trivial

theorem Free.broken {trace calls : List Event} (h : Free trace) (hcalls : Broken calls) :
    Free (trace ++ calls) := by
  cases hcalls with
  | unshown line e => exact h.concat nofun nofun h.unloaded
  | unspoken speech e => exact h.said speech (.error e)
  | refused name e => exact h.concat nofun nofun trivial
  | unheard | unfreed => exact h.listened _ _ _ _ _

theorem Course.placed {trace calls : List Event} {halt : Option Halt} (hfree : Free trace)
    (h : Course halt calls) :
    Placed (trace ++ calls) ∧ (halt ≠ some .listening → Free (trace ++ calls)) := by
  induction h generalizing trace with
  | done =>
    rw [List.append_nil]
    exact ⟨hfree.placed, fun _ => hfree⟩
  | next hcalls _ ih =>
    rw [← List.append_assoc]
    exact ih (hfree.smooth hcalls)
  | failed cause hcalls =>
    have hafter := hfree.broken hcalls
    exact ⟨hafter.placed, fun _ => hafter⟩
  | listening =>
    exact ⟨hfree.placed.append fun _ => not_isSaying_of_mem_listening, absurd rfl⟩

theorem Placed.apart {trace : List Event} (h : Placed trace) : Apart trace := by
  intro before name between e after hsplit he
  apply Classical.byContradiction
  intro hno
  rw [← List.cons_append, ← List.append_assoc] at hsplit
  have hloaded : Holds name (before ++ [.loaded name (.ok ())]) := holds_concat_loaded.mpr rfl
  obtain ⟨held, hheld⟩ := holds_append hloaded fun freed hfreed => hno ⟨freed, hfreed⟩
  rw [List.append_assoc, List.singleton_append] at hheld
  have hplace := h _ e after hsplit
  cases e with
  | wrote => exact hplace held hheld
  | spoke => exact hplace.1 held hheld
  | loaded | attempted | unloaded | highlighted => exact he

/-! ### A failure is the end -/

theorem failStop_nil : FailStop [] := by
  intro before e after h
  exact absurd h.symm (by simp)

theorem FailStop.cons {e : Event} {calls : List Event} (h : FailStop calls) (he : ¬ e.Failed) :
    FailStop (e :: calls) := by
  intro before e' after hsplit hfailed
  cases before with
  | nil =>
    obtain ⟨rfl, rfl⟩ := List.cons.inj hsplit
    exact absurd hfailed he
  | cons first before => exact h before e' after (List.cons.inj hsplit).2 hfailed

/-- In front of requests that end at their first failure there may be others that succeed. -/
theorem FailStop.append {calls more : List Event} (h : FailStop more)
    (hcalls : ∀ e ∈ calls, ¬ e.Failed) : FailStop (calls ++ more) := by
  induction calls with
  | nil => exact h
  | cons e calls ih =>
    obtain ⟨he, hrest⟩ := List.forall_mem_cons.mp hcalls
    exact (ih hrest).cons he

theorem failStop_singleton {e : Event}
    (he : ∀ timeout cause, e ≠ .attempted timeout (.error cause)) : FailStop [e] := by
  intro before e' after hsplit _
  cases before with
  | nil =>
    obtain ⟨rfl, rfl⟩ := List.cons.inj hsplit
    exact Or.inr ⟨he, rfl⟩
  | cons first before => exact absurd (List.cons.inj hsplit).2.symm (by simp)

/-- Behind an attempt that failed there is the unload. -/
theorem failStop_unheard (timeout : Duration) (cause : EngineFailure)
    (freed : Except EngineFailure Unit) :
    FailStop [.attempted timeout (.error cause), .unloaded freed] := by
  intro before e after hsplit hfailed
  cases before with
  | nil =>
    obtain ⟨rfl, rfl⟩ := List.cons.inj hsplit
    exact Or.inl ⟨⟨timeout, cause, rfl⟩, freed, rfl⟩
  | cons first before =>
    exact failStop_singleton (by simp) before e after (List.cons.inj hsplit).2 hfailed

theorem not_failed_of_mem_replicate {timeout : Duration} {silent : Nat} {e : Event}
    (he : e ∈ List.replicate silent (.attempted timeout (.ok none))) : ¬ e.Failed := by
  rw [(List.mem_replicate.mp he).2]
  exact id

theorem Smooth.not_failed {calls : List Event} (h : Smooth calls) : ∀ e ∈ calls, ¬ e.Failed := by
  cases h with
  | said speech => simp [Event.Failed]
  | highlighted color => simp [Event.Failed]
  | heard g timeout silent heard =>
    refine List.forall_mem_cons.mpr ⟨id, List.forall_mem_append.mpr ⟨?_, ?_⟩⟩
    · exact fun _ => not_failed_of_mem_replicate
    · simp [Event.Failed]

theorem Broken.failStop {calls : List Event} (h : Broken calls) : FailStop calls := by
  cases h with
  | unshown line e => exact failStop_singleton (by simp)
  | unspoken speech e => exact (failStop_singleton (by simp)).cons id
  | refused name e => exact failStop_singleton (by simp)
  | unheard g timeout silent e freed =>
    exact ((failStop_unheard timeout e freed).append fun _ => not_failed_of_mem_replicate).cons id
  | unfreed g timeout silent heard e =>
    have hfreed : FailStop [.attempted timeout (.ok (some heard)), .unloaded (.error e)] :=
      (failStop_singleton (by simp)).cons id
    exact (hfreed.append fun _ => not_failed_of_mem_replicate).cons id

theorem Course.failStop {calls : List Event} {halt : Option Halt} (h : Course halt calls) :
    FailStop calls := by
  induction h with
  | done => exact failStop_nil
  | next hcalls _ ih => exact ih.append hcalls.not_failed
  | failed cause hcalls => exact hcalls.failStop
  | listening g timeout patience =>
    have hsilent : FailStop (List.replicate patience (.attempted timeout (.ok none)) ++ []) :=
      failStop_nil.append fun _ => not_failed_of_mem_replicate
    rw [List.append_nil] at hsilent
    exact hsilent.cons id

end Colloquy
