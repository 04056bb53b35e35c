import VaultMesh.Coding.Texts

/-!
# Reading bytes as a text

A strict decoder accepts the bytes of a text and nothing else. A lenient decoder
accepts any bytes: whatever is no character becomes U+FFFD, one for each longest
part which a character could have started with, and a byte order mark in front
is dropped. On the bytes of a text both agree, up to the byte order mark.

The second half is about texts which are cut after a number of bytes.
-/

namespace Coding

def decodeStrict (bytes : List UInt8) : Option String :=
  String.fromUTF8? ⟨bytes.toArray⟩

/-! ## Lenient decoding -/

def replacementChar : Char :=
  '\uFFFD'

def byteOrderMark : Char :=
  '\uFEFF'

/-- How many bytes a character with this lead byte takes after it. -/
def neededAfter (lead : UInt8) : ℕ :=
  if 0xC2 ≤ lead ∧ lead ≤ 0xDF then 1
  else if 0xE0 ≤ lead ∧ lead ≤ 0xEF then 2
  else if 0xF0 ≤ lead ∧ lead ≤ 0xF4 then 3
  else 0

/-- The second byte is limited where the others would encode a number too short, a surrogate or a
number beyond the last character. -/
def secondByte (lead : UInt8) : UInt8 × UInt8 :=
  if lead = 0xE0 then (0xA0, 0xBF)
  else if lead = 0xED then (0x80, 0x9F)
  else if lead = 0xF0 then (0x90, 0xBF)
  else if lead = 0xF4 then (0x80, 0x8F)
  else (0x80, 0xBF)

/-- How many of the bytes continue a character which still needs some. -/
def continuing : ℕ → UInt8 × UInt8 → List UInt8 → ℕ
  | 0, _, _ => 0
  | _ + 1, _, [] => 0
  | needed + 1, (lower, upper), byte :: rest =>
      if lower ≤ byte ∧ byte ≤ upper then continuing needed (0x80, 0xBF) rest + 1 else 0

/-- The character read at a byte, and how many of the following bytes belong to it. -/
def readChar (lead : UInt8) (rest : List UInt8) : Char × ℕ :=
  match ByteArray.utf8DecodeChar? ⟨(lead :: rest).toArray⟩ 0 with
  | some char => (char, char.utf8Size - 1)
  | none => (replacementChar, continuing (neededAfter lead) (secondByte lead) rest)

def charsAfter : ℕ → List UInt8 → List Char
  | _, [] => []
  | skip + 1, _ :: rest => charsAfter skip rest
  | 0, lead :: rest => (readChar lead rest).1 :: charsAfter (readChar lead rest).2 rest

def dropMark : List Char → List Char
  | [] => []
  | char :: chars => if char = byteOrderMark then chars else char :: chars

def decodeLenient (bytes : List UInt8) : String :=
  String.ofList (dropMark (charsAfter 0 bytes))

theorem charsAfter_append {front : List UInt8} {skip : ℕ} (length : front.length = skip)
    (rest : List UInt8) : charsAfter skip (front ++ rest) = charsAfter 0 rest := by
  induction front generalizing skip with
  | nil =>
      subst length
      rfl
  | cons byte front ih =>
      subst length
      rw [List.length_cons, List.cons_append, charsAfter]
      exact ih rfl

theorem charsAfter_encodeChar (char : Char) (rest : List UInt8) :
    charsAfter 0 (String.utf8EncodeChar char ++ rest) = char :: charsAfter 0 rest := by
  have length := String.length_utf8EncodeChar char
  have positive := Char.utf8Size_pos char
  cases encoded : String.utf8EncodeChar char with
  | nil =>
      rw [encoded, List.length_nil] at length
      omega
  | cons lead others =>
      rw [encoded, List.length_cons] at length
      have read : readChar lead (others ++ rest) = (char, char.utf8Size - 1) := by
        have whole : (⟨(lead :: (others ++ rest)).toArray⟩ : ByteArray) =
            (String.utf8EncodeChar char).toByteArray ++ ⟨rest.toArray⟩ := by
          apply ByteArray.ext
          simp [encoded]
        rw [readChar, whole, ByteArray.utf8DecodeChar?_utf8EncodeChar_append]
      rw [List.cons_append, charsAfter, read, charsAfter_append (by omega)]

/-- The bytes of a text are read character by character. -/
theorem charsAfter_utf8 (text : String) : charsAfter 0 (utf8 text) = text.toList := by
  rw [utf8_eq_flatMap]
  induction text.toList with
  | nil => rfl
  | cons char chars ih => rw [List.flatMap_cons, charsAfter_encodeChar, ih]

theorem decodeLenient_utf8 (text : String) :
    decodeLenient (utf8 text) = String.ofList (dropMark text.toList) := by
  rw [decodeLenient, charsAfter_utf8]

/-- Only a byte order mark is lost. -/
theorem decodeLenient_utf8_eq_iff (text : String) :
    decodeLenient (utf8 text) = text ↔ text.toList.head? ≠ some byteOrderMark := by
  rw [decodeLenient_utf8, ← String.toList_inj, String.toList_ofList]
  cases text.toList with
  | nil => simp [dropMark]
  | cons char chars =>
      by_cases mark : char = byteOrderMark
      · simp [dropMark, mark]
      · simp [dropMark, mark]

/-- The bytes of a character which is cut off become one replacement character. -/
example : charsAfter 0 [0xE2, 0x82, 0x41] = [replacementChar, 'A'] := by decide

theorem decodeStrict_eq_some_iff {bytes : List UInt8} {text : String} :
    decodeStrict bytes = some text ↔ utf8 text = bytes :=
  fromUTF8?_eq_some_iff

/-! ## Cut texts -/

/-- The text ends within the limit, or a character ends exactly at it. -/
def CutsBetween (text : String) (limit : ℕ) : Prop :=
  (utf8 text).length ≤ limit ∨
    ∃ front, front <+: text.toList ∧ (utf8 (String.ofList front)).length = limit

/-- A text whose bytes are the first ones of another text starts that text. -/
theorem isPrefix_of_utf8_eq_take {front text : String} {limit : ℕ}
    (taken : utf8 front = (utf8 text).take limit) : front.toList <+: text.toList := by
  have cut : utf8 front ++ (utf8 text).drop limit = utf8 text := by
    rw [taken, List.take_append_drop]
  rcases exists_append_of_utf8 cut with ⟨rest, split, -⟩
  exact ⟨rest, split.symm⟩

theorem head?_of_utf8_eq_take {front text : String} {limit : ℕ} (positive : 0 < limit)
    (taken : utf8 front = (utf8 text).take limit) : front.toList.head? = text.toList.head? := by
  rcases isPrefix_of_utf8_eq_take taken with ⟨rest, split⟩
  cases chars : front.toList with
  | cons char chars' =>
      rw [← split, chars]
      rfl
  | nil =>
      have nothing : (utf8 text).take limit = [] := by
        rw [← taken, utf8_eq_flatMap, chars, List.flatMap_nil]
      have empty : utf8 text = utf8 "" := by
        rcases List.take_eq_nil_iff.mp nothing with zero | empty
        · omega
        · exact empty
      rw [utf8_injective empty]
      rfl

/-- What is left of a text when its bytes are cut is a text only if no character is cut. -/
theorem exists_utf8_eq_take_iff (text : String) (limit : ℕ) :
    (∃ front, utf8 front = (utf8 text).take limit) ↔ CutsBetween text limit := by
  constructor
  · rintro ⟨front, taken⟩
    by_cases short : (utf8 text).length ≤ limit
    · exact Or.inl short
    · right
      refine ⟨front.toList, isPrefix_of_utf8_eq_take taken, ?_⟩
      rw [String.ofList_toList, taken, List.length_take]
      omega
  · rintro (short | ⟨front, ⟨rest, split⟩, length⟩)
    · exact ⟨text, (List.take_of_length_le short).symm⟩
    · refine ⟨String.ofList front, ?_⟩
      have bytes : utf8 text = utf8 (String.ofList front) ++ utf8 (String.ofList rest) := by
        rw [← utf8_append, ← String.ofList_append, split, String.ofList_toList]
      rw [bytes, ← length, List.take_left]

end Coding
