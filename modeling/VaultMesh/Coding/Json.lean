import Mathlib.Algebra.Group.Nat.Defs
import Mathlib.Data.Int.Notation
import Mathlib.Data.List.Basic

/-!
# JSON

The values which derived serialization produces and reads, and what is asked of a
library which writes values as texts and reads texts. Numbers are unsigned
integers, the only ones which the wire types of a program with machine counters
take; every other number is a value of its own, which no such type takes.
-/

namespace Coding

/-- A number which is more than digits. -/
structure Decimal where
  negative : Bool
  whole : ℕ
  fraction : List (Fin 10)
  exponent : Option ℤ
  marked : negative = true ∨ fraction ≠ [] ∨ exponent ≠ none

inductive Json where
  | null
  | bool (value : Bool)
  | number (value : ℕ)
  | decimal (value : Decimal)
  | string (text : String)
  | array (items : List Json)
  | object (fields : List (String × Json))

namespace Json

def quote : Char := Char.ofNat 34

def backslash : Char := Char.ofNat 92

def openBrace : Char := Char.ofNat 123

def closeBrace : Char := Char.ofNat 125

def isSpace (letter : Char) : Bool :=
  letter = ' ' || letter = '\n' || letter = '\r' || letter = '\t'

/-- A letter which a value or the space before it may start with. -/
def opens (letter : Char) : Bool :=
  isSpace letter || letter.isDigit ||
    [quote, '[', openBrace, '-', 'n', 't', 'f'].contains letter

/-- The text of no value: it is empty, or starts with a letter which starts no value, or with a
sign without a digit. -/
def NotJson : List Char → Prop
  | [] => True
  | [letter] => letter.isDigit = false
  | letter :: next :: _ => opens letter = false ∨ letter = '-' ∧ next.isDigit = false

instance : DecidablePred NotJson
  | [] => isTrue trivial
  | [letter] => inferInstanceAs (Decidable (letter.isDigit = false))
  | letter :: next :: _ =>
      inferInstanceAs (Decidable (opens letter = false ∨ letter = '-' ∧ next.isDigit = false))

theorem notJson_of_head {letters : List Char} {letter : Char}
    (head : letters.head? = some letter) (shut : opens letter = false) : NotJson letters := by
  rcases List.head?_eq_some_iff.mp head with ⟨rest, rfl⟩
  have notDigit : letter.isDigit = false := by
    simp only [opens, Bool.or_eq_false_iff] at shut
    exact shut.1.2
  cases rest with
  | nil => exact notDigit
  | cons next rest => exact Or.inl shut

theorem notJson_of_signs {letters : List Char} (signs : "--".toList <+: letters) :
    NotJson letters := by
  rcases signs with ⟨rest, rfl⟩
  exact Or.inr ⟨rfl, rfl⟩

/-- A library for texts of values. A text may have to end after its value (`parse`), or may go on in
whatever way (`parseFront`). -/
structure Library where
  toText : Json → String
  parse : String → Option Json
  parseFront : String → Option Json
  toText_null : toText .null = "null"
  parse_toText : ∀ json, parse (toText json) = some json
  parseFront_toText : ∀ json, parseFront (toText json) = some json
  parse_of_notJson : ∀ text, NotJson text.toList → parse text = none

attribute [simp] Library.parse_toText Library.parseFront_toText

@[simp]
theorem Library.parse_empty (library : Library) : library.parse "" = none :=
  library.parse_of_notJson "" trivial

end Json

end Coding
