import VaultMesh.Coding.Json
import VaultMesh.Coding.Texts

/-!
# Texts of JSON values

The compact text of a value and a reader for texts (`compact`). Reading goes by
recursive descent over the characters; its depth is bounded by the length of the
text.
-/

namespace Coding

namespace Json

/-! ## Writing -/

/-- The characters with an escape of one letter. -/
def shortEscapes : List (Char × Char) :=
  [(quote, quote), (backslash, backslash), (Char.ofNat 8, 'b'), (Char.ofNat 9, 't'),
    (Char.ofNat 10, 'n'), (Char.ofNat 12, 'f'), (Char.ofNat 13, 'r')]

def escape (letter : Char) : List Char :=
  match shortEscapes.lookup letter with
  | some mark => [backslash, mark]
  | none =>
      if letter.toNat < 32 then
        [backslash, 'u', '0', '0', hexDigit (letter.toNat / 16), hexDigit (letter.toNat % 16)]
      else
        [letter]

def writeText (text : String) : List Char :=
  quote :: text.toList.flatMap escape ++ [quote]

/-- Items between brackets, separated by commas. -/
def enclose (first last : Char) (items : List (List Char)) : List Char :=
  first :: [','].intercalate items ++ [last]

def writeDigits (digits : List (Fin 10)) : List Char :=
  digits.map fun digit => Nat.digitChar digit.val

def writeSign (negative : Bool) : List Char :=
  if negative then ['-'] else []

def writeFraction : List (Fin 10) → List Char
  | [] => []
  | digits => '.' :: writeDigits digits

def writeExponent : Option ℤ → List Char
  | none => []
  | some exponent =>
      'e' :: (writeSign (decide (exponent < 0)) ++ Nat.toDigits 10 exponent.natAbs)

def writeDecimal (value : Decimal) : List Char :=
  writeSign value.negative ++ Nat.toDigits 10 value.whole ++ writeFraction value.fraction ++
    writeExponent value.exponent

mutual

/-- `serde_json::to_string`. -/
def write : Json → List Char
  | .null => "null".toList
  | .bool true => "true".toList
  | .bool false => "false".toList
  | .number value => Nat.toDigits 10 value
  | .decimal value => writeDecimal value
  | .string text => writeText text
  | .array items => enclose '[' ']' (writeItems items)
  | .object fields => enclose openBrace closeBrace (writeFields fields)

def writeItems : List Json → List (List Char)
  | [] => []
  | item :: items => write item :: writeItems items

def writeFields : List (String × Json) → List (List Char)
  | [] => []
  | (name, value) :: fields => (writeText name ++ ':' :: write value) :: writeFields fields

end

def toText (json : Json) : String :=
  String.ofList json.write

/-! ## Reading -/

/-- Reads a value off the front of a text and leaves the rest. -/
abbrev Reader (α : Type) := List Char → Option (α × List Char)

def skipSpace (text : List Char) : List Char :=
  text.dropWhile isSpace

def hexValue (letter : Char) : Option ℕ :=
  let code := letter.toNat
  if 48 ≤ code ∧ code ≤ 57 then some (code - 48)
  else if 97 ≤ code ∧ code ≤ 102 then some (code - 87)
  else if 65 ≤ code ∧ code ≤ 70 then some (code - 55)
  else none

/-- The character with a code, if it is a scalar value. -/
def scalar (code : ℕ) : Option Char :=
  if code.isValidChar then some (Char.ofNat code) else none

/-- The number with four hexadecimal digits. -/
def hexCode (a b c d : Char) : Option ℕ := do
  let a ← hexValue a
  let b ← hexValue b
  let c ← hexValue c
  let d ← hexValue d
  some (((a * 16 + b) * 16 + c) * 16 + d)

/-- The codes from which on a surrogate is the first, or the second, of a pair. -/
def highSurrogate : ℕ := 55296

def lowSurrogate : ℕ := 56320

/-- The character which a pair of surrogates stands for. -/
def paired (high low : ℕ) : Option Char :=
  if lowSurrogate ≤ low ∧ low < lowSurrogate + 1024 then
    scalar (65536 + (high - highSurrogate) * 1024 + (low - lowSurrogate))
  else
    none

def unescape (mark : Char) : Option Char :=
  if mark = '/' then some '/' else (shortEscapes.map Prod.swap).lookup mark

/-- The text up to the closing quote. -/
def readText : Reader (List Char)
  | [] => none
  | letter :: rest =>
      if letter = quote then
        some ([], rest)
      else if letter = backslash then
        match rest with
        | [] => none
        | mark :: rest =>
            if mark = 'u' then
              match rest with
              | a :: b :: c :: d :: rest => do
                  let code ← hexCode a b c d
                  if highSurrogate ≤ code ∧ code < lowSurrogate then
                    match rest with
                    | sign :: mark :: a :: b :: c :: d :: rest => do
                        let low ← hexCode a b c d
                        let plain ← if sign = backslash ∧ mark = 'u' then paired code low else none
                        let (text, after) ← readText rest
                        some (plain :: text, after)
                    | _ => none
                  else do
                    let plain ← scalar code
                    let (text, after) ← readText rest
                    some (plain :: text, after)
              | _ => none
            else do
              let plain ← unescape mark
              let (text, after) ← readText rest
              some (plain :: text, after)
      else if letter.toNat < 32 then
        none
      else do
        let (text, after) ← readText rest
        some (letter :: text, after)

/-- The digits at the front, at least one. -/
def readDigits : Reader (List Char) := fun text =>
  let digits := text.takeWhile Char.isDigit
  if digits = [] then none else some (digits, text.dropWhile Char.isDigit)

/-- A numeral without leading zeros. -/
def readWhole : Reader ℕ := fun text => do
  let (digits, after) ← readDigits text
  let value := Nat.ofDigitChars 10 digits 0
  if Nat.toDigits 10 value = digits then some (value, after) else none

/-- Whether there is a minus sign. -/
def readSign : List Char → Bool × List Char
  | '-' :: rest => (true, rest)
  | text => (false, text)

/-- The sign of an exponent may also be a plus. -/
def readExponentSign : List Char → Bool × List Char
  | '+' :: rest => (false, rest)
  | text => readSign text

def digitOf (letter : Char) : Fin 10 :=
  Fin.ofNat 10 (letter.toNat - 48)

def readFraction : Reader (List (Fin 10))
  | '.' :: rest => do
      let (digits, after) ← readDigits rest
      some (digits.map digitOf, after)
  | text => some ([], text)

def readExponent : Reader (Option ℤ)
  | [] => some (none, [])
  | mark :: rest =>
      if mark = 'e' ∨ mark = 'E' then do
        let (negative, unsigned) := readExponentSign rest
        let (digits, after) ← readDigits unsigned
        let size : ℤ := Nat.ofDigitChars 10 digits 0
        some (some (if negative then -size else size), after)
      else
        some (none, mark :: rest)

/-- The value with these parts. -/
def numeral (negative : Bool) (whole : ℕ) (fraction : List (Fin 10)) (exponent : Option ℤ) : Json :=
  if marked : negative = true ∨ fraction ≠ [] ∨ exponent ≠ none then
    .decimal ⟨negative, whole, fraction, exponent, marked⟩
  else
    .number whole

def readNumber : Reader Json := fun text => do
  let (negative, after) := readSign text
  let (whole, after) ← readWhole after
  let (fraction, after) ← readFraction after
  let (exponent, after) ← readExponent after
  some (numeral negative whole fraction exponent, after)

/-- One item and those after it, up to the closing bracket. -/
def readMore {α : Type} (read : Reader α) (last : Char) : ℕ → Reader (List α)
  | 0, _ => none
  | count + 1, text => do
      let (item, after) ← read text
      match skipSpace after with
      | [] => none
      | letter :: rest =>
          if letter = last then
            some ([item], rest)
          else if letter = ',' then do
            let (items, after) ← readMore read last count rest
            some (item :: items, after)
          else
            none

/-- The items after an opening bracket. -/
def readList {α : Type} (read : Reader α) (last : Char) : Reader (List α) := fun text =>
  match skipSpace text with
  | [] => none
  | letter :: rest =>
      if letter = last then some ([], rest) else readMore read last text.length (letter :: rest)

/-- A name, a colon and a value. -/
def readField (read : Reader Json) : Reader (String × Json) := fun text =>
  match skipSpace text with
  | [] => none
  | letter :: rest =>
      if letter = quote then do
        let (name, after) ← readText rest
        match skipSpace after with
        | [] => none
        | mark :: rest =>
            if mark = ':' then do
              let (value, after) ← read rest
              some ((String.ofList name, value), after)
            else
              none
      else
        none

def readWord (word : List Char) (value : Json) : Reader Json := fun text =>
  if word <+: text then some (value, text.drop word.length) else none

def readValue : ℕ → Reader Json
  | 0, _ => none
  | depth + 1, text =>
      match skipSpace text with
      | [] => none
      | letter :: rest =>
          if letter = quote then do
            let (text, after) ← readText rest
            some (.string (String.ofList text), after)
          else if letter = '[' then do
            let (items, after) ← readList (readValue depth) ']' rest
            some (.array items, after)
          else if letter = openBrace then do
            let (fields, after) ← readList (readField (readValue depth)) closeBrace rest
            some (.object fields, after)
          else if letter = 'n' then
            readWord "ull".toList .null rest
          else if letter = 't' then
            readWord "rue".toList (.bool true) rest
          else if letter = 'f' then
            readWord "alse".toList (.bool false) rest
          else
            readNumber (letter :: rest)

/-- The value at the front of a text. -/
def readFront (text : String) : Option (Json × List Char) :=
  readValue (text.toList.length + 1) text.toList

/-- Up to the shape of the value, `serde_json::from_str`. -/
def parse (text : String) : Option Json := do
  let (value, after) ← readFront text
  if skipSpace after = [] then some value else none

/-- Up to the shape of the value, a deserializer which is not asked for the end of the text. -/
def parseFront (text : String) : Option Json :=
  (readFront text).map Prod.fst

/-! ## Reading what was written -/

theorem hexValue_hexDigit {digit : ℕ} (small : digit < 16) :
    hexValue (hexDigit digit) = some digit := by
  have all : ∀ digit : Fin 16, hexValue (hexDigit digit) = some digit.val := by
    decide
  exact all ⟨digit, small⟩

theorem scalar_toNat (letter : Char) : scalar letter.toNat = some letter := by
  have valid : letter.toNat.isValidChar := letter.valid
  rw [scalar, if_pos valid, Char.ofNat_toNat]

/-- A letter with a short escape is one of seven. -/
theorem readText_short {letter mark : Char} (short : (letter, mark) ∈ shortEscapes)
    (rest : List Char) :
    readText (backslash :: mark :: rest) =
      (readText rest).map fun read => (letter :: read.1, read.2) := by
  have plain : mark ≠ 'u' ∧ unescape mark = some letter := by
    simp only [shortEscapes, List.mem_cons, Prod.mk.injEq, List.not_mem_nil, or_false] at short
    rcases short with ⟨rfl, rfl⟩ | ⟨rfl, rfl⟩ | ⟨rfl, rfl⟩ | ⟨rfl, rfl⟩ | ⟨rfl, rfl⟩ | ⟨rfl, rfl⟩ |
      ⟨rfl, rfl⟩ <;> decide
  have marked : backslash ≠ quote := by decide
  rw [readText.eq_def]
  cases later : readText rest with
  | none => simp [marked, plain, later]
  | some read => simp [marked, plain, later]

theorem hexCode_control {letter : Char} (control : letter.toNat < 32) :
    hexCode '0' '0' (hexDigit (letter.toNat / 16)) (hexDigit (letter.toNat % 16)) =
      some letter.toNat := by
  have zero : hexValue '0' = some 0 := by decide
  have code : ((0 * 16 + 0) * 16 + letter.toNat / 16) * 16 + letter.toNat % 16 = letter.toNat := by
    omega
  have high := hexValue_hexDigit (show letter.toNat / 16 < 16 by omega)
  have low := hexValue_hexDigit (show letter.toNat % 16 < 16 by omega)
  simp only [hexCode, zero, high, low, Option.bind_eq_bind, Option.bind_some, code]

theorem readText_control {letter : Char} (control : letter.toNat < 32) (rest : List Char) :
    readText ([backslash, 'u', '0', '0', hexDigit (letter.toNat / 16),
        hexDigit (letter.toNat % 16)] ++ rest) =
      (readText rest).map fun read => (letter :: read.1, read.2) := by
  have marked : backslash ≠ quote := by decide
  have single : ¬(highSurrogate ≤ letter.toNat ∧ letter.toNat < lowSurrogate) := by
    rw [highSurrogate]
    omega
  rw [List.cons_append, readText.eq_def]
  cases later : readText rest <;>
    simp [marked, hexCode_control control, single, scalar_toNat, later]

theorem readText_escape (letter : Char) (rest : List Char) :
    readText (escape letter ++ rest) =
      (readText rest).map fun read => (letter :: read.1, read.2) := by
  unfold escape
  cases short : shortEscapes.lookup letter with
  | some mark =>
      rcases List.lookup_eq_some_iff.mp short with ⟨before, after, split, _⟩
      apply readText_short
      rw [split]
      simp
  | none =>
      by_cases control : letter.toNat < 32
      · simp only [control, if_true]
        exact readText_control control rest
      · simp only [control, if_false, List.cons_append, List.nil_append]
        have unquoted : letter ≠ quote := by
          intro same
          subst same
          cases short
        have unmarked : letter ≠ backslash := by
          intro same
          subst same
          cases short
        rw [readText.eq_def]
        cases later : readText rest with
        | none => simp [unquoted, unmarked, control, later]
        | some read => simp [unquoted, unmarked, control, later]

theorem readText_flatMap (text rest : List Char) :
    readText (text.flatMap escape ++ quote :: rest) = some (text, rest) := by
  induction text with
  | nil =>
      rw [readText.eq_def]
      simp
  | cons letter text ih => simp [List.flatMap_cons, readText_escape, ih]

/-- A letter which a number may go on with. -/
def continues (letter : Char) : Bool :=
  letter.isDigit || letter = '.' || letter = 'e' || letter = 'E'

/-- Where a number ends. -/
def Stops (rest : List Char) : Prop :=
  ∀ letter ∈ rest.head?, continues letter = false

/-- Where digits end. -/
def Digitless (rest : List Char) : Prop :=
  ∀ letter ∈ rest.head?, letter.isDigit = false

theorem stops_cons {letter : Char} (stops : continues letter = false) (rest : List Char) :
    Stops (letter :: rest) := by
  simpa [Stops] using stops

theorem Stops.digitless {rest : List Char} (stops : Stops rest) : Digitless rest := by
  intro letter first
  have stop := stops letter first
  simp only [continues, Bool.or_eq_false_iff] at stop
  exact stop.1.1.1

theorem readDigits_append {digits rest : List Char} (some : digits ≠ [])
    (all : ∀ letter ∈ digits, letter.isDigit = true) (ends : Digitless rest) :
    readDigits (digits ++ rest) = Option.some (digits, rest) := by
  have ended : rest.takeWhile Char.isDigit = [] ∧ rest.dropWhile Char.isDigit = rest := by
    cases rest with
    | nil => exact ⟨rfl, rfl⟩
    | cons letter rest =>
        have stop := ends letter rfl
        simp [stop]
  simp only [readDigits, List.takeWhile_append_of_pos all, List.dropWhile_append_of_pos all, ended,
    List.append_nil, some, if_false]

theorem isDigit_toDigits (value : ℕ) :
    ∀ letter ∈ Nat.toDigits 10 value, letter.isDigit = true := by
  intro letter present
  exact Nat.isDigit_of_mem_toDigits (by omega) (by omega) present

theorem readDigits_toDigits (value : ℕ) {rest : List Char} (ends : Digitless rest) :
    readDigits (Nat.toDigits 10 value ++ rest) = some (Nat.toDigits 10 value, rest) :=
  readDigits_append Nat.toDigits_ne_nil (isDigit_toDigits value) ends

theorem toDigits_cons (value : ℕ) :
    ∃ letter tail, Nat.toDigits 10 value = letter :: tail ∧ letter.isDigit = true := by
  cases digits : Nat.toDigits 10 value with
  | nil => exact absurd digits Nat.toDigits_ne_nil
  | cons letter tail => exact ⟨letter, tail, rfl, isDigit_toDigits value letter (by simp [digits])⟩

theorem readWhole_toDigits (value : ℕ) {rest : List Char} (ends : Digitless rest) :
    readWhole (Nat.toDigits 10 value ++ rest) = some (value, rest) := by
  simp only [readWhole, readDigits_toDigits value ends, Option.bind_eq_bind, Option.bind_some,
    Nat.ofDigitChars_ten_toDigits, if_true]

/-- A sign in front of digits is read as it was written. -/
theorem readSign_write (negative : Bool) (value : ℕ) (rest : List Char) :
    readSign (writeSign negative ++ (Nat.toDigits 10 value ++ rest)) =
      (negative, Nat.toDigits 10 value ++ rest) := by
  cases negative with
  | true => rfl
  | false =>
      rcases toDigits_cons value with ⟨letter, tail, split, digit⟩
      rw [writeSign, split, List.cons_append]
      simp only [Bool.false_eq_true, if_false, List.nil_append]
      rw [readSign.eq_def]
      split
      · next same =>
          cases same
          cases digit
      · rfl

theorem digitOf_digitChar (digit : Fin 10) : digitOf (Nat.digitChar digit.val) = digit := by
  revert digit
  decide

theorem readFraction_write (fraction : List (Fin 10)) {rest : List Char} (ends : Digitless rest)
    (pointless : ∀ letter ∈ rest.head?, letter ≠ '.') :
    readFraction (writeFraction fraction ++ rest) = some (fraction, rest) := by
  cases fraction with
  | nil =>
      rw [writeFraction, List.nil_append, readFraction.eq_def]
      split
      · exact absurd rfl (pointless '.' rfl)
      · rfl
  | cons digit digits =>
      have all : ∀ letter ∈ writeDigits (digit :: digits), letter.isDigit = true := by
        have each : ∀ digit : Fin 10, (Nat.digitChar digit.val).isDigit = true := by decide
        intro letter present
        rcases List.mem_map.mp present with ⟨digit, -, rfl⟩
        exact each digit
      have read := readDigits_append (by simp [writeDigits]) all ends
      simp only [writeFraction, List.cons_append, readFraction, read, Option.bind_eq_bind,
        Option.bind_some]
      simp [writeDigits, Function.comp_def, digitOf_digitChar]

theorem readExponentSign_write (negative : Bool) (value : ℕ) (rest : List Char) :
    readExponentSign (writeSign negative ++ (Nat.toDigits 10 value ++ rest)) =
      (negative, Nat.toDigits 10 value ++ rest) := by
  rw [← readSign_write negative value rest, readExponentSign.eq_def]
  split
  · next signed =>
      cases negative with
      | true => cases signed
      | false =>
          rcases toDigits_cons value with ⟨letter, tail, split, digit⟩
          rw [writeSign, split] at signed
          cases signed
          cases digit
  · rfl

theorem readExponent_write (exponent : Option ℤ) {rest : List Char} (stops : Stops rest) :
    readExponent (writeExponent exponent ++ rest) = some (exponent, rest) := by
  cases exponent with
  | none =>
      cases rest with
      | nil => rfl
      | cons letter rest =>
          have stop := stops letter rfl
          simp only [continues, Bool.or_eq_false_iff, decide_eq_false_iff_not] at stop
          simp [writeExponent, readExponent, stop.1.2, stop.2]
  | some exponent =>
      have value : (if exponent < 0 then -(exponent.natAbs : ℤ) else exponent.natAbs) =
          exponent := by
        split <;> omega
      simp only [writeExponent, List.cons_append, List.append_assoc, readExponent, true_or, if_true,
        readExponentSign_write, readDigits_toDigits _ stops.digitless, Option.bind_eq_bind,
        Option.bind_some, Nat.ofDigitChars_ten_toDigits, decide_eq_true_eq, value]

/-- What follows the digits of a number, if the number stops after it. -/
theorem digitless_fraction (fraction : List (Fin 10)) {rest : List Char} (ends : Digitless rest) :
    Digitless (writeFraction fraction ++ rest) := by
  cases fraction with
  | nil => exact ends
  | cons digit digits =>
      rintro letter ⟨⟩
      decide

theorem exponent_head (exponent : Option ℤ) {rest : List Char} (stops : Stops rest) :
    Digitless (writeExponent exponent ++ rest) ∧
      ∀ letter ∈ (writeExponent exponent ++ rest).head?, letter ≠ '.' := by
  cases exponent with
  | none =>
      refine ⟨stops.digitless, ?_⟩
      rintro _ first rfl
      cases stops '.' first
  | some exponent =>
      constructor <;> rintro letter ⟨⟩ <;> decide

/-- A number reads back from its parts. -/
theorem readNumber_write (negative : Bool) (whole : ℕ) (fraction : List (Fin 10))
    (exponent : Option ℤ) {rest : List Char} (stops : Stops rest) :
    readNumber (writeSign negative ++ Nat.toDigits 10 whole ++ writeFraction fraction ++
        writeExponent exponent ++ rest) =
      some (numeral negative whole fraction exponent, rest) := by
  rcases exponent_head exponent stops with ⟨ends, pointless⟩
  simp only [List.append_assoc, readNumber, readSign_write,
    readWhole_toDigits whole (digitless_fraction fraction ends),
    readFraction_write fraction ends pointless, readExponent_write exponent stops,
    Option.bind_eq_bind, Option.bind_some]

theorem skipSpace_of_head {letter : Char} (plain : isSpace letter = false) (rest : List Char) :
    skipSpace (letter :: rest) = letter :: rest := by
  simp [skipSpace, plain]

section Lists

variable {α : Type} {read : Reader α} {last : Char} {text : α → List Char}

/-- Items which read back one by one read back as a list. -/
theorem readMore_intercalate (lastPlain : isSpace last = false) (notComma : last ≠ ',')
    (lastStops : continues last = false) (rest : List Char) {items : List α} (some : items ≠ [])
    (reads : ∀ item ∈ items, ∀ rest, Stops rest →
      read (text item ++ rest) = Option.some (item, rest)) {count : ℕ}
    (enough : items.length ≤ count) :
    readMore read last count ([','].intercalate (items.map text) ++ last :: rest) =
      Option.some (items, rest) := by
  induction items generalizing count with
  | nil => exact absurd rfl some
  | cons item items ih =>
      rcases count with _ | count
      · simp at enough
      cases items with
      | nil =>
          have first := reads item (by simp) (last :: rest) (stops_cons lastStops rest)
          simp [readMore, first, skipSpace_of_head lastPlain]
      | cons next items =>
          have first := reads item (by simp)
            (',' :: ([','].intercalate ((next :: items).map text) ++ last :: rest))
            (stops_cons (by decide) _)
          have later : readMore read last count
              ([','].intercalate ((next :: items).map text) ++ last :: rest) =
                Option.some (next :: items, rest) :=
            ih (by simp) (fun item present => reads item (by simp [present]))
              (by simpa using enough)
          have split : [','].intercalate ((item :: next :: items).map text) ++ last :: rest =
              text item ++
                ',' :: ([','].intercalate ((next :: items).map text) ++ last :: rest) := by
            simp [List.intercalate_cons_cons]
          have comma : isSpace ',' = false := by decide
          rw [split, readMore, first]
          simp only [Option.bind_eq_bind, Option.bind_some, skipSpace_of_head comma,
            notComma.symm, if_false, if_true, later]

theorem length_le_intercalate {items : List α} (nonempty : ∀ item ∈ items, text item ≠ []) :
    items.length ≤ ([','].intercalate (items.map text)).length := by
  induction items with
  | nil => simp
  | cons item items ih =>
      have own : 0 < (text item).length := List.length_pos_iff.mpr (nonempty item (by simp))
      have others := ih fun item present => nonempty item (by simp [present])
      cases items with
      | nil =>
          simp only [List.map_cons, List.map_nil, List.intercalate_singleton, List.length_cons,
            List.length_nil]
          omega
      | cons next items =>
          simp only [List.map_cons, List.intercalate_cons_cons, List.length_append,
            List.length_cons, List.length_nil] at others ⊢
          omega

theorem readList_enclosed (lastPlain : isSpace last = false) (notComma : last ≠ ',')
    (lastStops : continues last = false) {items : List α} (rest : List Char)
    (starts : ∀ item ∈ items, ∃ letter tail, text item = letter :: tail ∧
      isSpace letter = false ∧ letter ≠ last)
    (reads : ∀ item ∈ items, ∀ rest, Stops rest → read (text item ++ rest) = some (item, rest)) :
    readList read last ([','].intercalate (items.map text) ++ last :: rest) =
      some (items, rest) := by
  have nonempty : ∀ item ∈ items, text item ≠ [] := by
    intro item present
    rcases starts item present with ⟨letter, tail, split, _⟩
    simp [split]
  have bound := length_le_intercalate nonempty
  cases items with
  | nil => simp [readList, skipSpace_of_head lastPlain]
  | cons item items =>
      rcases starts item (by simp) with ⟨letter, tail, split, plain, other⟩
      have enough : (item :: items).length ≤
          ([','].intercalate ((item :: items).map text) ++ last :: rest).length := by
        simp only [List.length_append]
        omega
      have more := readMore_intercalate lastPlain notComma lastStops rest (by simp) reads enough
      have head : ∃ tail, [','].intercalate ((item :: items).map text) ++ last :: rest =
          letter :: tail := by
        cases items with
        | nil => exact ⟨tail ++ last :: rest, by simp [split]⟩
        | cons next items =>
            exact ⟨_, by simp only [List.map_cons, List.intercalate_cons_cons, split,
              List.cons_append]; rfl⟩
      rcases head with ⟨after, whole⟩
      rw [whole] at more ⊢
      rw [readList, skipSpace_of_head plain]
      simpa [other] using more

end Lists

def writeField (field : String × Json) : List Char :=
  writeText field.1 ++ ':' :: write field.2

theorem writeItems_eq_map (items : List Json) : writeItems items = items.map write := by
  induction items with
  | nil => rfl
  | cons item items ih => simp [writeItems, ih]

theorem writeFields_eq_map (fields : List (String × Json)) :
    writeFields fields = fields.map writeField := by
  induction fields with
  | nil => rfl
  | cons field fields ih => simp [writeFields, writeField, ih]

theorem length_le_enclose {part : List Char} {parts : List (List Char)} (present : part ∈ parts)
    (first last : Char) : part.length + 2 ≤ (enclose first last parts).length := by
  have inside : part.length ≤ ([','].intercalate parts).length := by
    induction parts with
    | nil => cases present
    | cons head parts ih =>
        cases parts with
        | nil =>
            rcases List.mem_singleton.mp present with rfl
            simp
        | cons next parts =>
            rw [List.intercalate_cons_cons, List.length_append, List.length_append]
            rcases List.mem_cons.mp present with rfl | later
            · omega
            · have bound := ih later
              omega
  simp only [enclose, List.length_append, List.length_cons, List.length_nil]
  omega

/-- How a number starts. -/
def startsNumber (letter : Char) : Bool :=
  letter.isDigit || letter = '-'

theorem starts_plain {letter : Char} (starts : startsNumber letter = true) :
    isSpace letter = false ∧ letter ≠ ']' ∧ letter ≠ quote ∧ letter ≠ '[' ∧ letter ≠ openBrace ∧
      letter ≠ 'n' ∧ letter ≠ 't' ∧ letter ≠ 'f' := by
  have distinct : ∀ other : Char, startsNumber other = false → letter ≠ other := by
    intro other none same
    rw [same, none] at starts
    cases starts
  refine ⟨?_, distinct _ (by decide), distinct _ (by decide), distinct _ (by decide),
    distinct _ (by decide), distinct _ (by decide), distinct _ (by decide), distinct _ (by decide)⟩
  simp [isSpace, distinct ' ' (by decide), distinct '\n' (by decide), distinct '\r' (by decide),
    distinct '\t' (by decide)]

theorem number_starts (negative : Bool) (value : ℕ) (rest : List Char) :
    ∃ letter tail, writeSign negative ++ Nat.toDigits 10 value ++ rest = letter :: tail ∧
      startsNumber letter = true := by
  cases negative with
  | true => exact ⟨'-', _, rfl, rfl⟩
  | false =>
      rcases toDigits_cons value with ⟨letter, tail, split, digit⟩
      exact ⟨letter, tail ++ rest, by simp [writeSign, split], by simp [startsNumber, digit]⟩

/-- A value starts with a character which is no space and closes no list. -/
theorem write_starts (json : Json) :
    ∃ letter tail, write json = letter :: tail ∧ isSpace letter = false ∧ letter ≠ ']' := by
  cases json with
  | null => exact ⟨'n', _, rfl, by decide, by decide⟩
  | bool value => cases value <;> exact ⟨_, _, rfl, by decide, by decide⟩
  | number value =>
      rcases number_starts false value [] with ⟨letter, tail, split, starts⟩
      refine ⟨letter, tail, ?_, (starts_plain starts).1, (starts_plain starts).2.1⟩
      rw [← split, write, List.append_nil]
      rfl
  | decimal value =>
      rcases number_starts value.negative value.whole
        (writeFraction value.fraction ++ writeExponent value.exponent) with
          ⟨letter, tail, split, starts⟩
      refine ⟨letter, tail, ?_, (starts_plain starts).1, (starts_plain starts).2.1⟩
      rw [← split, write, writeDecimal]
      simp only [List.append_assoc]
  | string text => exact ⟨quote, _, rfl, by decide, by decide⟩
  | array items => exact ⟨'[', _, rfl, by decide, by decide⟩
  | object fields => exact ⟨openBrace, _, rfl, by decide, by decide⟩

theorem readField_writeField {read : Reader Json} {field : String × Json} {rest : List Char}
    (reads : read (write field.2 ++ rest) = some (field.2, rest)) :
    readField read (writeField field ++ rest) = some (field, rest) := by
  have split : writeField field ++ rest =
      quote :: (field.1.toList.flatMap escape ++ quote :: ':' :: (write field.2 ++ rest)) := by
    simp [writeField, writeText]
  have quotePlain : isSpace quote = false := by decide
  have colonPlain : isSpace ':' = false := by decide
  rw [split, readField, skipSpace_of_head quotePlain]
  simp only [if_true, readText_flatMap, Option.bind_eq_bind, Option.bind_some,
    skipSpace_of_head colonPlain, reads, String.ofList_toList]

/-! The branches of `readValue`, each by the first letter. -/

theorem readValue_word {depth : ℕ} {rest : List Char} :
    readValue (depth + 1) ("null".toList ++ rest) = some (.null, rest) ∧
      readValue (depth + 1) ("true".toList ++ rest) = some (.bool true, rest) ∧
      readValue (depth + 1) ("false".toList ++ rest) = some (.bool false, rest) := by
  refine ⟨?_, ?_, ?_⟩
  · change readValue (depth + 1) ('n' :: ("ull".toList ++ rest)) = _
    rw [readValue, skipSpace_of_head (by decide)]
    simp [readWord, quote, openBrace]
  · change readValue (depth + 1) ('t' :: ("rue".toList ++ rest)) = _
    rw [readValue, skipSpace_of_head (by decide)]
    simp [readWord, quote, openBrace]
  · change readValue (depth + 1) ('f' :: ("alse".toList ++ rest)) = _
    rw [readValue, skipSpace_of_head (by decide)]
    simp [readWord, quote, openBrace]

theorem readValue_number (depth : ℕ) {letter : Char} (starts : startsNumber letter = true)
    (rest : List Char) : readValue (depth + 1) (letter :: rest) = readNumber (letter :: rest) := by
  rcases starts_plain starts with ⟨plain, _, notQuote, notBracket, notBrace, notN, notT, notF⟩
  rw [readValue, skipSpace_of_head plain]
  simp only [notQuote, notBracket, notBrace, notN, notT, notF, if_false]

theorem readValue_numeral (depth : ℕ) (negative : Bool) (whole : ℕ) (fraction : List (Fin 10))
    (exponent : Option ℤ) {rest : List Char} (stops : Stops rest) :
    readValue (depth + 1) (writeSign negative ++ Nat.toDigits 10 whole ++ writeFraction fraction ++
        writeExponent exponent ++ rest) =
      some (numeral negative whole fraction exponent, rest) := by
  rw [← readNumber_write negative whole fraction exponent stops]
  rcases number_starts negative whole (writeFraction fraction ++ (writeExponent exponent ++ rest))
    with ⟨letter, tail, split, starts⟩
  simp only [List.append_assoc] at split ⊢
  rw [split]
  exact readValue_number depth starts tail

theorem readValue_text (depth : ℕ) (text : String) (rest : List Char) :
    readValue (depth + 1) (writeText text ++ rest) = some (.string text, rest) := by
  have split : writeText text ++ rest =
      quote :: (text.toList.flatMap escape ++ quote :: rest) := by
    simp [writeText]
  rw [split, readValue, skipSpace_of_head (by decide)]
  simp only [if_true, readText_flatMap, Option.bind_eq_bind, Option.bind_some,
    String.ofList_toList]

theorem readValue_array {depth : ℕ} {items : List Json} {text rest : List Char}
    (reads : readList (readValue depth) ']' text = some (items, rest)) :
    readValue (depth + 1) ('[' :: text) = some (.array items, rest) := by
  have notQuote : '[' ≠ quote := by decide
  rw [readValue, skipSpace_of_head (by decide)]
  simp only [notQuote, if_false, if_true, reads, Option.bind_eq_bind, Option.bind_some]

theorem readValue_object {depth : ℕ} {fields : List (String × Json)} {text rest : List Char}
    (reads : readList (readField (readValue depth)) closeBrace text = some (fields, rest)) :
    readValue (depth + 1) (openBrace :: text) = some (.object fields, rest) := by
  have notQuote : openBrace ≠ quote := by decide
  have notBracket : openBrace ≠ '[' := by decide
  rw [readValue, skipSpace_of_head (by decide)]
  simp only [notQuote, notBracket, if_false, if_true, reads, Option.bind_eq_bind,
    Option.bind_some]

/-- With enough depth, the text of a value reads back as the value. -/
theorem readValue_write (depth : ℕ) (json : Json) (enough : (write json).length ≤ depth)
    {rest : List Char} (stops : Stops rest) :
    readValue depth (write json ++ rest) = some (json, rest) := by
  induction depth generalizing json rest with
  | zero =>
      rcases write_starts json with ⟨letter, tail, split, _⟩
      simp [split] at enough
  | succ depth ih =>
      cases json with
      | null => exact readValue_word.1
      | bool value =>
          cases value with
          | true => exact readValue_word.2.1
          | false => exact readValue_word.2.2
      | number value =>
          simpa [write, writeSign, writeFraction, writeExponent, numeral] using
            readValue_numeral depth false value [] none stops
      | decimal value =>
          rw [write, writeDecimal, readValue_numeral depth _ _ _ _ stops, numeral,
            dif_pos value.marked]
      | string text => exact readValue_text depth text rest
      | array items =>
          have split : write (.array items) ++ rest =
              '[' :: ([','].intercalate (items.map write) ++ ']' :: rest) := by
            simp [write, enclose, writeItems_eq_map]
          rw [split]
          apply readValue_array
          refine readList_enclosed (by decide) (by decide) (by decide) rest ?_ ?_
          · intro item _
            exact write_starts item
          · intro item present rest stops
            have bound := length_le_enclose (List.mem_map_of_mem present : write item ∈ _) '[' ']'
            rw [← writeItems_eq_map] at bound
            rw [write] at enough
            exact ih item (by omega) stops
      | object fields =>
          have split : write (.object fields) ++ rest =
              openBrace :: ([','].intercalate (fields.map writeField) ++ closeBrace :: rest) := by
            simp [write, enclose, writeFields_eq_map]
          rw [split]
          apply readValue_object
          refine readList_enclosed (by decide) (by decide) (by decide) rest ?_ ?_
          · intro field _
            exact ⟨quote, _, rfl, by decide, by decide⟩
          · intro field present rest stops
            have bound := length_le_enclose (List.mem_map_of_mem present : writeField field ∈ _)
              openBrace closeBrace
            rw [← writeFields_eq_map] at bound
            rw [write] at enough
            apply readField_writeField
            apply ih field.2 _ stops
            simp only [writeField, List.length_append, List.length_cons] at bound
            omega

theorem readFront_toText (json : Json) : readFront json.toText = some (json, []) := by
  have stops : Stops [] := by simp [Stops]
  have whole := readValue_write (json.write.length + 1) json (by omega) stops
  rw [List.append_nil] at whole
  rw [readFront, toText, String.toList_ofList, whole]

theorem readWhole_of_digitless {text : List Char} (ends : Digitless text) :
    readWhole text = none := by
  cases text with
  | nil => rfl
  | cons letter rest =>
      have other := ends letter rfl
      simp [readWhole, readDigits, other]

theorem readNumber_of_sign {rest : List Char} (ends : Digitless rest) :
    readNumber ('-' :: rest) = none := by
  simp [readNumber, readSign, readWhole_of_digitless ends]

theorem readNumber_of_not_starts {letter : Char} (other : startsNumber letter = false)
    (rest : List Char) : readNumber (letter :: rest) = none := by
  simp only [startsNumber, Bool.or_eq_false_iff, decide_eq_false_iff_not] at other
  have ends : Digitless (letter :: rest) := by
    simpa [Digitless] using other.1
  have unsigned : readSign (letter :: rest) = (false, letter :: rest) := by
    rw [readSign.eq_def]
    split
    · next same =>
        cases same
        exact absurd rfl other.2
    · rfl
  simp [readNumber, unsigned, readWhole_of_digitless ends]

theorem readValue_of_not_opens {letter : Char} (shut : opens letter = false) (depth : ℕ)
    (rest : List Char) : readValue depth (letter :: rest) = none := by
  cases depth with
  | zero => rfl
  | succ depth =>
      simp only [opens, Bool.or_eq_false_iff, List.contains_cons, List.contains_nil,
        beq_eq_false_iff_ne] at shut
      rcases shut with ⟨⟨plain, notDigit⟩, notQuote, notBracket, notBrace, notSign, notN, notT,
        notF, -⟩
      have other : startsNumber letter = false := by
        simp [startsNumber, notDigit, notSign]
      rw [readValue, skipSpace_of_head plain]
      simp only [notQuote, notBracket, notBrace, notN, notT, notF, if_false,
        readNumber_of_not_starts other]

/-- One letter is a value only if it is a digit. -/
theorem readValue_single {letter : Char} (other : letter.isDigit = false) (depth : ℕ) :
    readValue depth [letter] = none := by
  cases depth with
  | zero => rfl
  | succ depth =>
      have number : readNumber [letter] = none := by
        by_cases sign : letter = '-'
        · rw [sign]
          exact readNumber_of_sign (by simp [Digitless])
        · exact readNumber_of_not_starts (by simp [startsNumber, other, sign]) []
      cases spaced : isSpace letter with
      | true => simp [readValue, skipSpace, spaced]
      | false =>
          rw [readValue, skipSpace_of_head spaced]
          simp [readText, readList, skipSpace, readWord, number]

theorem parse_of_notJson {text : String} (wrong : NotJson text.toList) : parse text = none := by
  have unread : readFront text = none := by
    rw [readFront]
    generalize text.toList = letters at wrong
    match letters, wrong with
    | [], _ => rfl
    | [letter], other => exact readValue_single other _
    | letter :: next :: rest, .inl shut => exact readValue_of_not_opens shut _ _
    | _ :: next :: rest, .inr ⟨rfl, other⟩ =>
        rw [readValue_number _ rfl]
        apply readNumber_of_sign
        simpa [Digitless] using other
  rw [parse, unread]
  rfl

/-- The compact texts. -/
def compact : Library where
  toText := toText
  parse := parse
  parseFront := parseFront
  toText_null := rfl
  parse_toText json := by
    rw [parse, readFront_toText]
    rfl
  parseFront_toText json := by
    rw [parseFront, readFront_toText]
    rfl
  parse_of_notJson _ := parse_of_notJson

end Json

end Coding
