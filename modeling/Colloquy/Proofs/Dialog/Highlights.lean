import Colloquy.Engine.Prepared
import Colloquy.Proofs.Dialog.ColorInForce

/-!
# The highlight of a dialog

A console that never fails shows the lines of a dialog in the color in force, and its highlight is
that color. Between the line that tells of a color and the highlight that follows it the console lags
behind, so what requests to a dialog keep is stated of the moments at which no such phrase is still
to be told (`Steady`).

* `Lit.tell`: where the highlight catches up.
* `Steady.runTurn`: a turn settles a color and keeps it, or keeps the highlight that was.
* `highlight_discipline`: what a console shows after any row of requests.
-/

namespace Colloquy

namespace Dialog

open Act

variable {ε υ : Type}

/-! ## Moments of a dialog -/

/-- The console of a session. -/
def console (s : Session (Recorded (Stage ε υ Console))) : Console := s.world.world.display

/-- Nothing has been settled between two moments of a session, and the highlight is the same. -/
def Calm (s after : Session (Recorded (Stage ε υ Console))) : Prop :=
  ∃ calls, after.world.trace = s.world.trace ++ calls ∧ Quiet s.world.trace calls ∧
    (console after).highlight = (console s).highlight

/-- The color that was settled last between two moments of a session is now the highlight. -/
def Recolored (s after : Session (Recorded (Stage ε υ Console))) : Prop :=
  ∃ calls more color, after.world.trace = s.world.trace ++ (calls ++ more) ∧
    Settles (s.world.trace ++ calls) color ∧ Quiet (s.world.trace ++ calls) more ∧
    (console after).highlight = some color.style

variable {s after next : Session (Recorded (Stage ε υ Console))}

theorem Calm.refl (s : Session (Recorded (Stage ε υ Console))) : Calm s s :=
  ⟨[], (List.append_nil _).symm, .nil, rfl⟩

/-- What is settled later is settled in the whole. -/
theorem Recolored.behind (h : Recolored next after) {calls : List Event}
    (htrace : next.world.trace = s.world.trace ++ calls) : Recolored s after := by
  obtain ⟨first, more, color, htrace', hnow, hquiet, hcolor⟩ := h
  rw [htrace] at htrace' hnow hquiet
  refine ⟨calls ++ first, more, color, ?_, ?_, ?_, hcolor⟩
  · rw [htrace', List.append_assoc, List.append_assoc]
  · rwa [← List.append_assoc]
  · rwa [← List.append_assoc]

theorem Calm.trans (h : Calm s next) (h' : Calm next after) : Calm s after := by
  obtain ⟨calls, htrace, hquiet, hsame⟩ := h
  obtain ⟨more, htrace', hquiet', hsame'⟩ := h'
  rw [htrace] at htrace' hquiet'
  exact ⟨calls ++ more, htrace'.trans (List.append_assoc _ _ _), hquiet.append hquiet',
    hsame'.trans hsame⟩

/-! ## Halves of a turn -/

/-- The second half of a turn. -/
def tell {σ : Type} [Voice σ] [Display σ] (turn : Turn) (phrase : Phrase) : Act σ Unit := do
  say (.plain (reportLine phrase))
  reply turn phrase

theorem runTurn_eq {σ : Type} [Engine σ] [Voice σ] [Display σ] (patience : Nat) (turn : Turn) :
    (runTurn patience turn : Act σ Phrase) = do
      say (.plain turn.prompt)
      let phrase ← listen patience turn.grammar
      tell turn phrase
      return phrase := by
  simp only [runTurn, tell, bind_assoc]

/-! ## A console in color -/

section

variable [Terminal TermColor]

/-- The console has shown what it should, and is to show what comes in the color in force. -/
structure Lit (s : Session (Recorded (Stage ε υ Console))) : Prop where
  unlimited : (console s).sink.capacity = none
  inked : Inked s.world.trace (console s).sink.written
  inForce : InForce s.world.trace (console s).highlight

/-- Besides, no phrase with a favorite color is still to be told. -/
structure Steady (s : Session (Recorded (Stage ε υ Console))) : Prop extends Lit s where
  told : ∀ heard, ¬ JustHeard .favoriteColor heard s.world.trace

/-- Requests to the engine write nothing and settle nothing. -/
theorem Lit.of_unsaid (h : Lit s) {calls : List Event} (hcalls : ∀ e ∈ calls, ¬ e.IsSaying)
    (htrace : after.world.trace = s.world.trace ++ calls) (hsame : console after = console s) :
    Lit after ∧ Calm s after := by
  have hquiet : Quiet s.world.trace calls := .of_unspoken fun e he speech answer hspoke =>
    hcalls e he (hspoke ▸ trivial)
  refine ⟨⟨?_, ?_, ?_⟩, calls, htrace, hquiet, congrArg Console.highlight hsame⟩
  · rw [hsame]
    exact h.unlimited
  · rw [hsame, htrace]
    exact h.inked.append fun e he line answer hwrote => hcalls e he (hwrote ▸ trivial)
  · rw [hsame, htrace]
    exact h.inForce.append hquiet

/-! ## Lines in color -/

section

variable [Voice υ]

/-- The session in which a speech was shown, in the color of the console, and then put to the
voice. -/
def uttered (speech : Speech) (s : Session (Recorded (Stage ε υ Console))) :
    Session (Recorded (Stage ε υ Console)) :=
  let spoken := Voice.speak speech s.world.world.voice
  let written := (console s).sink.written ++
    Console.encoding (console s).highlight speech.transcript
  { s with world := ⟨
      { s.world.world with
        voice := spoken.2
        display := { console s with sink := { (console s).sink with written } } },
      s.world.trace ++ [.wrote speech.transcript (.ok ()), .spoke speech spoken.1]⟩ }

/-- On a console that never fails, only the voice may. -/
theorem say_console (h : (console s).sink.capacity = none) (speech : Speech) :
    say speech s = ((Voice.speak speech s.world.world.voice).1.mapError
      fun e => .failed (.synthesis e), uttered speech s) := by
  have hwrite := Console.writeLine_of_unlimited h speech.transcript
  rw [Console.flatten_pieces] at hwrite
  rw [say_apply, uttered]
  simp only [console] at hwrite ⊢
  simp only [Recorded.writeLine_eq, Stage.writeLine_eq, hwrite, Recorded.speak_eq, Stage.speak_eq,
    List.append_assoc, List.cons_append, List.nil_append]
  rcases Voice.speak speech s.world.world.voice with ⟨e | _, spoken⟩ <;> rfl

theorem Lit.inked_uttered (h : Lit s) (speech : Speech) :
    Inked (uttered speech s).world.trace (console (uttered speech s)).sink.written :=
  h.inked.said h.inForce speech _

/-- A speech that settles no color. -/
theorem Lit.steady_uttered (h : Lit s) {speech : Speech}
    (hno : ∀ color, ¬ Settles (uttered speech s).world.trace color) :
    Steady (uttered speech s) ∧ Calm s (uttered speech s) := by
  have hquiet := Quiet.said hno
  exact ⟨⟨⟨h.unlimited, h.inked_uttered speech, h.inForce.append hquiet⟩,
    fun heard => JustHeard.not_append (List.cons_ne_nil _ _) (by simp)⟩, _, rfl, hquiet, rfl⟩

theorem Steady.say (h : Steady s) (speech : Speech) :
    Steady (say speech s).2 ∧ Calm s (say speech s).2 := by
  rw [say_console h.unlimited]
  apply h.toLit.steady_uttered
  intro color hsettles
  obtain ⟨-, heard, -, hheard, -⟩ := settles_said_iff.mp hsettles
  exact h.told heard hheard

/-! ## What was heard is told -/

/-- Once a color is settled it becomes the highlight, and stays it whether its acknowledgement can be
spoken or not. -/
theorem acknowledged (hunlimited : (console s).sink.capacity = none)
    (hinked : Inked s.world.trace (console s).sink.written) {color : Color}
    (hnow : Settles s.world.trace color) {acknowledge : Act (Recorded (Stage ε υ Console)) Unit}
    (hact : acknowledge = do
      setHighlight (some color.style)
      say (praise color)) :
    Steady (acknowledge s).2 ∧ ∃ calls, (acknowledge s).2.world.trace = s.world.trace ++ calls ∧
      Quiet s.world.trace calls ∧ (console (acknowledge s).2).highlight = some color.style := by
  have hquiet : Quiet s.world.trace [.highlighted (some color.style)] := .of_unspoken (by simp)
  have hlit : Steady (setHighlight (some color.style) s).2 :=
    ⟨⟨hunlimited, hinked.other nofun, (InForce.of_settles hnow).append hquiet⟩,
      fun heard => JustHeard.not_append (List.cons_ne_nil _ _) (by simp)⟩
  obtain ⟨hsteady, calls, hcalls, hmore, hkept⟩ := hlit.say (praise color)
  rw [hact, bind_apply]
  exact ⟨hsteady, _, hcalls.trans (List.append_assoc _ _ _), hquiet.append hmore, hkept⟩

/-- What was heard is told and replied to: a favorite color in that color, which stays. -/
theorem Lit.tell (h : Lit s) {turn : Turn} {heard : Recognition}
    (hheard : JustHeard turn heard s.world.trace) :
    Steady (tell turn (.ofRecognition turn.grammar heard) s).2 ∧
      (Calm s (tell turn (.ofRecognition turn.grammar heard) s).2 ∨ turn = .favoriteColor ∧
        Recolored s (tell turn (.ofRecognition turn.grammar heard) s).2) := by
  have hsettles : ∀ color, Settles (uttered (.plain heard.told) s).world.trace color ↔
      (Voice.speak (.plain heard.told) s.world.world.voice).1 = .ok () ∧
        turn = .favoriteColor ∧ heard.NamesColor color := by
    intro color
    refine settles_said_iff.trans ?_
    constructor
    · rintro ⟨hanswer, again, -, hagain, hnames⟩
      obtain ⟨rfl, rfl⟩ := hheard.unique hagain
      exact ⟨hanswer, rfl, hnames⟩
    · rintro ⟨hanswer, rfl, hnames⟩
      exact ⟨hanswer, heard, rfl, hheard, hnames⟩
  have hreport : Dialog.say (.plain (reportLine (.ofRecognition turn.grammar heard))) s = _ :=
    say_console h.unlimited (.plain heard.told)
  rw [Dialog.tell, bind_apply, hreport]
  rcases hanswer : (Voice.speak (.plain heard.told) s.world.world.voice).1 with e | _
  · obtain ⟨hsteady, hcalm⟩ := h.steady_uttered fun color hnow =>
      nomatch hanswer.symm.trans ((hsettles color).mp hnow).1
    exact ⟨hsteady, Or.inl hcalm⟩
  dsimp only [mapError_ok]
  -- A color is settled here exactly if the reply sets the highlight next.
  obtain ⟨color, rfl, hnames, hreply⟩ | ⟨rfl, hreply⟩ | ⟨-, hno, hreply⟩ :=
    @reply_cases (Recorded (Stage ε υ Console)) _ _ turn heard
  · have hnow := (hsettles color).mpr ⟨hanswer, rfl, hnames⟩
    obtain ⟨hsteady, calls, hcalls, hquiet, hcolor⟩ :=
      acknowledged (s := uttered (.plain heard.told) s) h.unlimited (h.inked_uttered _) hnow hreply
    refine ⟨hsteady, Or.inr ⟨rfl, _, calls, color, ?_, hnow, hquiet, hcolor⟩⟩
    rw [← List.append_assoc]
    exact hcalls
  · obtain ⟨hsteady, hcalm⟩ := h.steady_uttered fun color hnow =>
      nomatch ((hsettles color).mp hnow).2.1
    obtain ⟨hreplied, hcalm'⟩ := hsteady.say (.plain ("Hi " ++ heard.nameHeard ++ "!"))
    rw [hreply]
    exact ⟨hreplied, Or.inl (hcalm.trans hcalm')⟩
  · obtain ⟨hsteady, hcalm⟩ := h.steady_uttered fun color hnow =>
      hno ((hsettles color).mp hnow).2.1 color ((hsettles color).mp hnow).2.2
    rw [hreply]
    exact ⟨hsteady, Or.inl hcalm⟩

end

/-! ## Listening -/

section

variable [Engine ε]

/-- A turn hears a phrase that it has not told yet, or it ends. -/
theorem Steady.listen (h : Steady s) (patience : Nat) (turn : Turn) :
    (∃ halt after, listen patience turn.grammar s = (.error halt, after) ∧ Steady after ∧
        Calm s after) ∨
      ∃ heard after, listen patience turn.grammar s =
          (.ok (.ofRecognition turn.grammar heard), after) ∧
        Lit after ∧ Calm s after ∧ JustHeard turn heard after.world.trace := by
  rcases hactive : s.active with _ | active
  · obtain ⟨-, -, -, hsame⟩ := Session.listen_recorded_stage patience turn.grammar s
    unfold Dialog.listen
    obtain ⟨e, after, hlisten, htrace, -⟩ | ⟨after, hlisten, htrace⟩ |
      ⟨silent, answer, freed, after, hlisten, htrace, -⟩ :=
        Session.listen_cases hactive turn.grammar patience
    · rw [hlisten] at hsame ⊢
      obtain ⟨hlit, hcalm⟩ := h.toLit.of_unsaid (by simp [Event.IsSaying]) htrace hsame
      refine Or.inl ⟨_, after, rfl, ⟨hlit, fun heard => ?_⟩, hcalm⟩
      rw [htrace]
      exact JustHeard.not_append (List.cons_ne_nil _ _) (by simp)
    · rw [hlisten] at hsame ⊢
      obtain ⟨hlit, hcalm⟩ :=
        h.toLit.of_unsaid (fun _ => not_isSaying_of_mem_listening) htrace hsame
      refine Or.inl ⟨_, after, rfl, ⟨hlit, fun heard => ?_⟩, hcalm⟩
      rw [htrace]
      exact JustHeard.not_append (List.cons_ne_nil _ _) (by simp)
    · rw [hlisten] at hsame ⊢
      obtain ⟨hlit, hcalm⟩ :=
        h.toLit.of_unsaid (fun _ => not_isSaying_of_mem_listenCalls) htrace hsame
      rcases answer with e | heard
      · refine Or.inl ⟨_, after, rfl, ⟨hlit, fun heard hheard => ?_⟩, hcalm⟩
        rw [htrace] at hheard
        exact nomatch hheard.of_listenCalls.1
      · rcases freed with e | _
        · refine Or.inl ⟨_, after, rfl, ⟨hlit, fun heard hheard => ?_⟩, hcalm⟩
          rw [htrace] at hheard
          exact nomatch hheard.of_listenCalls.2
        · exact Or.inr ⟨heard, after, rfl, hlit, hcalm, _, _, silent, htrace⟩
  · exact Or.inl ⟨_, s, listen_refused hactive patience turn.grammar, h, .refl s⟩

end

/-! ## Turns and dialogs -/

variable [Engine ε] [Voice υ]

namespace Steady

/-- A turn settles a color and keeps it as the highlight, or it settles none and keeps the one that
was. -/
theorem runTurn (h : Steady s) (patience : Nat) (turn : Turn) :
    Steady (runTurn patience turn s).2 ∧
      (Calm s (runTurn patience turn s).2 ∨
        turn = .favoriteColor ∧ Recolored s (runTurn patience turn s).2) := by
  have hprompt := h.say (.plain turn.prompt)
  rw [runTurn_eq, bind_apply]
  generalize Dialog.say (.plain turn.prompt) s = said at hprompt ⊢
  obtain ⟨hprompted, hcalm⟩ := hprompt
  obtain ⟨halt | _, prompted⟩ := said
  · exact ⟨hprompted, Or.inl hcalm⟩
  dsimp only at hprompted hcalm ⊢
  rw [bind_apply]
  obtain ⟨halt, answered, hlisten, hanswered, hcalm'⟩ |
    ⟨heard, answered, hlisten, hlit, hcalm', hheard⟩ := hprompted.listen patience turn
  · rw [hlisten]
    exact ⟨hanswered, Or.inl (hcalm.trans hcalm')⟩
  rw [hlisten]
  dsimp only
  rw [bind_pure_snd]
  obtain ⟨hsteady, htold | ⟨hturn, hcolored⟩⟩ := hlit.tell hheard
  · exact ⟨hsteady, Or.inl ((hcalm.trans hcalm').trans htold)⟩
  · obtain ⟨calls, htrace, -⟩ := hcalm.trans hcalm'
    exact ⟨hsteady, Or.inr ⟨hturn, hcolored.behind htrace⟩⟩

theorem call (h : Steady s) (patience : Nat) (call : Call) : Steady (call.act patience s).2 :=
  call.keeps (fun _ h speech => (h.say speech).1) (fun _ h turn => (h.runTurn patience turn).1) h

end Steady

/-- The sessions that requests to a dialog lead to, whether they succeed or not. -/
inductive Asked (fresh : Session (Recorded (Stage ε υ Console))) :
    Session (Recorded (Stage ε υ Console)) → Prop
  | fresh : Asked fresh fresh
  | call {s : Session (Recorded (Stage ε υ Console))} (h : Asked fresh s) (patience : Nat)
    (call : Call) : Asked fresh (call.act patience s).2

theorem steady_of_asked {fresh : Session (Stage ε υ Console)}
    (hnew : fresh.world.display = .new none) (h : Asked fresh.recorded s) : Steady s := by
  induction h with
  | fresh =>
    have hconsole : console fresh.recorded = .new none := hnew
    refine ⟨⟨?_, ?_, ?_⟩, fun heard hheard => ?_⟩
    · rw [hconsole]
      rfl
    · rw [hconsole]
      exact .blank
    · rw [hconsole]
      exact .usual .nil
    · obtain ⟨before, timeout, -, hsplit⟩ := hheard.exists_holds
      exact List.append_ne_nil_of_right_ne_nil _ (List.cons_ne_nil _ _) hsplit.symm
  | call _ patience call ih => exact ih.call patience call

/-- The highlight of a dialog on a new console that never fails, after any row of requests, whatever
the engine reported and whatever failed. What has been written are the lines that were shown, one
after the other, each in the color in force when it was shown; and that color is the one which was
settled last, that is, heard as the favorite color and told. It is also the highlight. So a turn
changes the highlight only if it settles a color, which no turn does but that with the favorite
color, and then that color stays, even if its acknowledgement fails. -/
theorem highlight_discipline {fresh : Session (Stage ε υ Console)}
    (hnew : fresh.world.display = .new none) (h : Asked fresh.recorded s) :
    (∀ bytes, Inked s.world.trace bytes ↔ bytes = (console s).sink.written) ∧
      (∀ highlight, InForce s.world.trace highlight ↔ highlight = (console s).highlight) ∧
      ∀ patience turn, Calm s (runTurn patience turn s).2 ∨
        turn = .favoriteColor ∧ Recolored s (runTurn patience turn s).2 := by
  have hsteady := steady_of_asked hnew h
  refine ⟨fun bytes => ⟨fun h => h.unique hsteady.inked, ?_⟩,
    fun highlight => ⟨fun h => h.unique hsteady.inForce, ?_⟩,
    fun patience turn => (hsteady.runTurn patience turn).2⟩
  · rintro rfl
    exact hsteady.inked
  · rintro rfl
    exact hsteady.inForce

end

/-- A session whose voice fails at the acknowledgement of the color that was heard. -/
def hoarseness : Session (Stage PreparedEngine MuteVoice Console) :=
  Session.new ⟨⟨[.ok (some contradiction)], [], [], true⟩,
    ⟨0, some (2, .deviceLost "unplugged")⟩, .new none⟩ .usual

/-- The turn fails behind the line that could not be spoken, and the color stays. -/
theorem runTurn_hoarseness :
    ∃ after, runTurn 1 .favoriteColor hoarseness.recorded =
        (.error (.failed (.synthesis (.deviceLost "unplugged"))), after) ∧
      (console after).highlight = some .green := by
  have hcolor : favoriteColor? (.ofRecognition Turn.favoriteColor.grammar contradiction) =
      some .green := favoriteColor?_eq_some_iff.mpr ⟨_, rfl, .position rfl rfl⟩
  -- The bytes cannot be computed, since the report of the confidence cannot; the states can.
  let prompted := uttered (.plain Turn.favoriteColor.prompt) hoarseness.recorded
  let answered := (listen 1 Turn.favoriteColor.grammar prompted).2
  let told := uttered (.plain contradiction.told) answered
  have hlisten : listen 1 Turn.favoriteColor.grammar prompted =
      (.ok (.ofRecognition Turn.favoriteColor.grammar contradiction), answered) := Prod.ext rfl rfl
  have hprompt : say (.plain Turn.favoriteColor.prompt) hoarseness.recorded = (.ok (), prompted) :=
    say_console rfl _
  have htell : say (.plain (reportLine (.ofRecognition Turn.favoriteColor.grammar contradiction)))
      answered = (.ok (), told) := say_console rfl _
  have hpraise : say (praise .green) (setHighlight (some Color.green.style) told).2 =
      (.error (.failed (.synthesis (.deviceLost "unplugged"))), _) := say_console rfl _
  have hlight : setHighlight (some Color.green.style) told =
      (.ok (), (setHighlight (some Color.green.style) told).2) := rfl
  refine ⟨uttered (praise .green) (setHighlight (some Color.green.style) told).2, ?_, rfl⟩
  rw [runTurn, bind_apply, hprompt]
  dsimp only
  rw [bind_apply, hlisten]
  dsimp only
  rw [bind_apply, htell]
  dsimp only
  rw [bind_apply, reply, hcolor]
  dsimp only
  rw [say_acknowledgement, bind_apply, hlight]
  dsimp only
  rw [hpraise]

/-- The colors have different styles, and that of the color that was heard last is in force. -/
theorem highlight_discipline_hoarseness :
    Color.all.map Color.style = [.red, .green, .blue] ∧ hoarseness.world.display = .new none ∧
      ∃ after, runTurn 1 .favoriteColor hoarseness.recorded =
          (.error (.failed (.synthesis (.deviceLost "unplugged"))), after) ∧
        Asked hoarseness.recorded after ∧ InForce after.world.trace (some .green) ∧
        ∀ patience, Calm after (runTurn patience .greeting after).2 := by
  have hnew : hoarseness.world.display = .new none := rfl
  obtain ⟨after, hturn, hgreen⟩ := runTurn_hoarseness
  have hasked : Asked hoarseness.recorded after := by
    have hfresh : Asked hoarseness.recorded hoarseness.recorded := .fresh
    have h := hfresh.call 1 (.take .favoriteColor)
    rwa [Call.act, bind_pure_snd, hturn] at h
  obtain ⟨-, hforce, hturns⟩ := highlight_discipline hnew hasked
  refine ⟨rfl, hnew, after, hturn, hasked, (hforce _).mpr hgreen.symm, fun patience => ?_⟩
  obtain hcalm | ⟨hturn, -⟩ := hturns patience .greeting
  · exact hcalm
  · cases hturn

end Dialog

end Colloquy
