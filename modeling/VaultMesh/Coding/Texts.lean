import Mathlib.Algebra.Group.Nat.Defs
import Mathlib.Data.List.Basic

/-!
# Bytes of texts and numbers

What a program feeds to a digest or puts into a frame: the UTF-8 bytes of a text,
the big-endian bytes of a number and the hexadecimal digits of a digest. Each of
the three encodings can be read back, and the last two have a fixed length.
-/

namespace Coding

/-! ## Texts -/

def utf8 (text : String) : List UInt8 :=
  text.toByteArray.data.toList

@[simp]
theorem utf8_append (left right : String) : utf8 (left ++ right) = utf8 left ++ utf8 right := by
  simp [utf8, String.toByteArray_append]

theorem utf8_injective : Function.Injective utf8 := by
  intro left right same
  apply String.toByteArray_inj.mp
  apply ByteArray.ext
  exact Array.toList_inj.mp same

theorem utf8_eq_flatMap (text : String) :
    utf8 text = text.toList.flatMap String.utf8EncodeChar := by
  simp [utf8, ← String.utf8Encode_toList, List.utf8Encode]

theorem fromUTF8?_eq_some_iff {bytes : List UInt8} {text : String} :
    String.fromUTF8? ⟨bytes.toArray⟩ = some text ↔ utf8 text = bytes := by
  constructor
  · intro decoded
    unfold String.fromUTF8? at decoded
    split at decoded
    · rcases Option.some.inj decoded with rfl
      simp [utf8, String.fromUTF8]
    · cases decoded
  · rintro rfl
    have whole : (⟨(utf8 text).toArray⟩ : ByteArray) = text.toByteArray := by
      simp [utf8]
    simp [String.fromUTF8?, whole, text.isValidUTF8, String.fromUTF8]

/-- Bytes cut off a text which are a text themselves are cut off between two characters. -/
theorem exists_append_of_utf8 {front whole : String} {back : List UInt8}
    (cut : utf8 front ++ back = utf8 whole) :
    ∃ rest : List Char, whole.toList = front.toList ++ rest ∧ utf8 (String.ofList rest) = back := by
  have isPrefix : front.toList <+: whole.toList := by
    apply List.isPrefix_of_utf8Encode_append_eq_utf8Encode ⟨back.toArray⟩
    apply ByteArray.ext
    apply Array.toList_inj.mp
    simpa [utf8, String.utf8Encode_toList] using cut
  rcases isPrefix with ⟨rest, split⟩
  refine ⟨rest, split.symm, ?_⟩
  rw [utf8_eq_flatMap whole, ← split, List.flatMap_append, ← utf8_eq_flatMap] at cut
  rw [utf8_eq_flatMap, String.toList_ofList]
  exact (List.append_cancel_left cut).symm

/-! ## Numbers -/

/-- The last `width` bytes of a number, most significant first. -/
def bigEndian : ℕ → ℕ → List UInt8
  | 0, _ => []
  | width + 1, value => bigEndian width (value / 256) ++ [UInt8.ofNat value]

@[simp]
theorem length_bigEndian (width value : ℕ) : (bigEndian width value).length = width := by
  induction width generalizing value with
  | zero => simp [bigEndian]
  | succ width ih => simp [bigEndian, ih]

theorem bigEndian_inj {width left right : ℕ} (leftFits : left < 256 ^ width)
    (rightFits : right < 256 ^ width) (same : bigEndian width left = bigEndian width right) :
    left = right := by
  induction width generalizing left right with
  | zero =>
      simp only [Nat.pow_zero] at leftFits rightFits
      omega
  | succ width ih =>
      simp only [bigEndian] at same
      rcases List.append_inj' same (by simp) with ⟨sameFront, sameLast⟩
      have quotient : left / 256 = right / 256 := by
        apply ih _ _ sameFront
        · rw [Nat.pow_succ] at leftFits
          omega
        · rw [Nat.pow_succ] at rightFits
          omega
      have remainder : left % 256 = right % 256 := by
        have bytes := congrArg UInt8.toNat (List.singleton_inj.mp sameLast)
        simpa using bytes
      omega

/-! ## Digests -/

/-- One lower-case hexadecimal digit. -/
def hexDigit (value : ℕ) : Char :=
  if value < 10 then Char.ofNat (48 + value) else Char.ofNat (87 + value)

def hexByte (byte : UInt8) : List Char :=
  [hexDigit (byte.toNat / 16), hexDigit (byte.toNat % 16)]

/-- `hex::encode`. -/
def hex (bytes : List UInt8) : String :=
  String.ofList (bytes.flatMap hexByte)

theorem hexDigit_inj {left right : ℕ} (leftSmall : left < 16) (rightSmall : right < 16)
    (same : hexDigit left = hexDigit right) : left = right := by
  have digits : ∀ left : Fin 16, ∀ right : Fin 16,
      hexDigit left = hexDigit right → left = right := by
    decide
  exact congrArg Fin.val (digits ⟨left, leftSmall⟩ ⟨right, rightSmall⟩ same)

theorem hexByte_injective : Function.Injective hexByte := by
  intro left right same
  have leftBound := left.toNat_lt
  have rightBound := right.toNat_lt
  simp only [hexByte, List.cons.injEq, and_true] at same
  have high := hexDigit_inj (by omega) (by omega) same.1
  have low := hexDigit_inj (by omega) (by omega) same.2
  apply UInt8.toNat_inj.mp
  omega

theorem hex_injective : Function.Injective hex := by
  intro left right same
  have chars : left.flatMap hexByte = right.flatMap hexByte := String.ofList_injective same
  clear same
  induction left generalizing right with
  | nil =>
      cases right with
      | nil => rfl
      | cons byte right => simp [hexByte] at chars
  | cons byte left ih =>
      cases right with
      | nil => simp [hexByte] at chars
      | cons other right =>
          simp only [List.flatMap_cons] at chars
          rcases List.append_inj chars (by simp [hexByte]) with ⟨sameByte, sameRest⟩
          rw [hexByte_injective sameByte, ih sameRest]

@[simp]
theorem length_utf8_hex (bytes : List UInt8) : (utf8 (hex bytes)).length = 2 * bytes.length := by
  have digits : ∀ value : Fin 16, (String.utf8EncodeChar (hexDigit value)).length = 1 := by
    decide
  simp only [utf8_eq_flatMap, hex, String.toList_ofList]
  induction bytes with
  | nil => rfl
  | cons byte bytes ih =>
      have bound := byte.toNat_lt
      have high := digits ⟨byte.toNat / 16, by omega⟩
      have low := digits ⟨byte.toNat % 16, by omega⟩
      simp only [List.flatMap_cons, hexByte, List.cons_append, List.nil_append,
        List.length_append, List.length_cons] at ih high low ⊢
      omega

end Coding
