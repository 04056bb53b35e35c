import Mathlib.Data.List.Basic

/-!
# Base64

What is asked of a library for texts of bytes, and one such library (`standard`):
the standard alphabet with padding. Three bytes become four letters; the last
group of one or two bytes is filled with `=`. The decoder is strict: it wants the
padding, and the bits which the padding leaves over must be zero.
-/

namespace Coding.Base64

/-- A library for texts of bytes. -/
structure Library where
  encode64 : List UInt8 → String
  decode64 : String → Option (List UInt8)
  decode64_encode64 : ∀ bytes, decode64 (encode64 bytes) = some bytes

attribute [simp] Library.decode64_encode64

/-- The letter which stands for a number below 64. -/
def letter (value : ℕ) : Char :=
  if value < 26 then Char.ofNat (65 + value)
  else if value < 52 then Char.ofNat (71 + value)
  else if value < 62 then Char.ofNat (value - 4)
  else if value = 62 then '+'
  else '/'

/-- The number which a letter stands for. -/
def value (symbol : Char) : Option ℕ :=
  let code := symbol.toNat
  if 65 ≤ code ∧ code ≤ 90 then some (code - 65)
  else if 97 ≤ code ∧ code ≤ 122 then some (code - 71)
  else if 48 ≤ code ∧ code ≤ 57 then some (code + 4)
  else if symbol = '+' then some 62
  else if symbol = '/' then some 63
  else none

theorem value_letter {number : ℕ} (small : number < 64) : value (letter number) = some number := by
  have all : ∀ number : Fin 64, value (letter number) = some number.val := by
    decide
  exact all ⟨number, small⟩

theorem letter_ne_pad (number : ℕ) : letter number ≠ '=' := by
  by_cases small : number < 64
  · have all : ∀ number : Fin 64, letter number ≠ '=' := by
      decide
    exact all ⟨number, small⟩
  · have large : letter number = '/' := by
      simp only [letter]
      split_ifs <;> first | omega | rfl
    rw [large]
    decide

def encodeBytes : List UInt8 → List Char
  | [] => []
  | [first] => [letter (first.toNat / 4), letter (first.toNat % 4 * 16), '=', '=']
  | [first, second] =>
      [letter (first.toNat / 4), letter (first.toNat % 4 * 16 + second.toNat / 16),
        letter (second.toNat % 16 * 4), '=']
  | first :: second :: third :: rest =>
      letter (first.toNat / 4) :: letter (first.toNat % 4 * 16 + second.toNat / 16) ::
        letter (second.toNat % 16 * 4 + third.toNat / 64) :: letter (third.toNat % 64) ::
          encodeBytes rest

/-- `STANDARD.encode`. -/
def encode (bytes : List UInt8) : String :=
  String.ofList (encodeBytes bytes)

def decodeLetters : List Char → Option (List UInt8)
  | [] => some []
  | first :: second :: third :: fourth :: rest => do
      let a ← value first
      let b ← value second
      if rest = [] ∧ fourth = '=' then
        if third = '=' then
          if b % 16 = 0 then some [UInt8.ofNat (a * 4 + b / 16)] else none
        else do
          let c ← value third
          if c % 4 = 0 then
            some [UInt8.ofNat (a * 4 + b / 16), UInt8.ofNat (b % 16 * 16 + c / 4)]
          else
            none
      else do
        let c ← value third
        let d ← value fourth
        let bytes ← decodeLetters rest
        some (UInt8.ofNat (a * 4 + b / 16) :: UInt8.ofNat (b % 16 * 16 + c / 4) ::
          UInt8.ofNat (c % 4 * 64 + d) :: bytes)
  | _ => none

/-- `STANDARD.decode`. -/
def decode (text : String) : Option (List UInt8) :=
  decodeLetters text.toList

theorem ofNat_of_toNat_eq {byte : UInt8} {number : ℕ} (same : number = byte.toNat) :
    UInt8.ofNat number = byte := by
  rw [same, UInt8.ofNat_toNat]

theorem decodeLetters_encodeBytes (bytes : List UInt8) :
    decodeLetters (encodeBytes bytes) = some bytes := by
  induction bytes using encodeBytes.induct with
  | case1 => rfl
  | case2 first =>
      have firstSmall := first.toNat_lt
      simp only [encodeBytes, decodeLetters, and_self, if_true]
      rw [value_letter (by omega), value_letter (by omega)]
      have whole : UInt8.ofNat (first.toNat / 4 * 4 + first.toNat % 4 * 16 / 16) = first :=
        ofNat_of_toNat_eq (by omega)
      simp only [Option.bind_eq_bind, Option.bind_some, whole]
      apply if_pos
      omega
  | case3 first second =>
      have firstSmall := first.toNat_lt
      have secondSmall := second.toNat_lt
      simp only [encodeBytes, decodeLetters, and_self, if_true, letter_ne_pad, if_false]
      rw [value_letter (by omega), value_letter (by omega), value_letter (by omega)]
      have wholeFirst : UInt8.ofNat (first.toNat / 4 * 4 +
          (first.toNat % 4 * 16 + second.toNat / 16) / 16) = first :=
        ofNat_of_toNat_eq (by omega)
      have wholeSecond : UInt8.ofNat ((first.toNat % 4 * 16 + second.toNat / 16) % 16 * 16 +
          second.toNat % 16 * 4 / 4) = second :=
        ofNat_of_toNat_eq (by omega)
      simp only [Option.bind_eq_bind, Option.bind_some, wholeFirst, wholeSecond]
      apply if_pos
      omega
  | case4 first second third rest ih =>
      have firstSmall := first.toNat_lt
      have secondSmall := second.toNat_lt
      have thirdSmall := third.toNat_lt
      simp only [encodeBytes, decodeLetters, letter_ne_pad, and_false, if_false]
      rw [value_letter (by omega), value_letter (by omega), value_letter (by omega),
        value_letter (by omega), ih]
      have wholeFirst : UInt8.ofNat (first.toNat / 4 * 4 +
          (first.toNat % 4 * 16 + second.toNat / 16) / 16) = first :=
        ofNat_of_toNat_eq (by omega)
      have wholeSecond : UInt8.ofNat ((first.toNat % 4 * 16 + second.toNat / 16) % 16 * 16 +
          (second.toNat % 16 * 4 + third.toNat / 64) / 4) = second :=
        ofNat_of_toNat_eq (by omega)
      have wholeThird : UInt8.ofNat ((second.toNat % 16 * 4 + third.toNat / 64) % 4 * 64 +
          third.toNat % 64) = third :=
        ofNat_of_toNat_eq (by omega)
      simp only [Option.bind_eq_bind, Option.bind_some, wholeFirst, wholeSecond, wholeThird]

theorem decode_encode (bytes : List UInt8) : decode (encode bytes) = some bytes := by
  simp only [decode, encode, String.toList_ofList]
  exact decodeLetters_encodeBytes bytes

def standard : Library where
  encode64 := encode
  decode64 := decode
  decode64_encode64 := decode_encode

end Coding.Base64
