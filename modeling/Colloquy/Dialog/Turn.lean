import Colloquy.Display.Color
import Colloquy.Grammar.Basic

/-!
# Turns

A dialog is a fixed row of turns. In each of them a prompt is said and a phrase of the turn's own
grammar is awaited.

* `wellFormed_grammar`: the grammar of every turn is well formed.
-/

namespace Colloquy

inductive Turn
  /-- Confirms a fixed phrase. -/
  | greeting
  /-- Lets a color be picked from a few words, without asking for its value. -/
  | freeChoice
  /-- Lets a color be picked after the word "color", and asks for its code. -/
  | favoriteColor
  /-- Hears a name without writing it down. -/
  | wildcardName
  /-- Hears a name and writes it down. -/
  | dictatedName
  deriving DecidableEq, Repr

/-- The key of the favorite color. -/
def colorKey : String := "color"

/-- The key of the speaker's name. -/
def nameKey : String := "name"

namespace Turn

/-- The turns in the order in which they are taken. -/
def all : List Turn := [.greeting, .freeChoice, .favoriteColor, .wildcardName, .dictatedName]

def name : Turn → String
  | .greeting => "greeting"
  | .freeChoice => "free_choice"
  | .favoriteColor => "favorite_color"
  | .wildcardName => "wildcard_name"
  | .dictatedName => "dictated_name"

/-- What is said before listening. -/
def prompt : Turn → String
  | .greeting => "Say 'Hello Computer'"
  | .freeChoice | .favoriteColor => "What is your favorite Red, Blue, or Green color?"
  | .wildcardName | .dictatedName => "What is your name?"

/-- What is listened for. -/
def nodes : Turn → List Node
  | .greeting => [⟨none, .literal "Hello Computer"⟩]
  | .freeChoice =>
    [⟨none, .choice [⟨"red", .text "red"⟩, ⟨"green", .text "green"⟩, ⟨"blue", .text "blue"⟩]⟩]
  | .favoriteColor => [⟨none, .literal "color"⟩, ⟨some colorKey, .choice Color.entries⟩]
  | .wildcardName => [⟨none, .literal "My name is"⟩, ⟨some nameKey, .wildcard⟩]
  | .dictatedName => [⟨none, .literal "My name is"⟩, ⟨some nameKey, .dictation⟩]

def grammar (t : Turn) : Grammar := ⟨t.name, t.nodes⟩

theorem wellFormed_grammar (t : Turn) : t.grammar.WellFormed := by
  cases t <;> exact ⟨by decide, by decide, by decide +kernel⟩

end Turn

end Colloquy
