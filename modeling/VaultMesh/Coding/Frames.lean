import VaultMesh.Coding.Texts

/-!
# Frames

A frame is a row of fields at fixed offsets. A writer appends the fields or sets
them into a blank buffer, a reader cuts them out again. Cutting beyond the end
is no error in the languages of the clients, it returns what is there; setting
beyond the end is one.
-/

namespace Coding

variable {α : Type}

/-- The elements from `start` to before `stop`, as far as there are any. -/
def slice (start stop : ℕ) (frame : List α) : List α :=
  (frame.take stop).drop start

/-- Overwrite the elements from `offset` on. -/
def setAt (frame source : List α) (offset : ℕ) : Except String (List α) :=
  if offset + source.length ≤ frame.length then
    .ok (frame.take offset ++ source ++ frame.drop (offset + source.length))
  else
    .error "offset is out of bounds"

theorem slice_field (before field after : List α) {start stop : ℕ}
    (offset : before.length = start) (width : start + field.length = stop) :
    slice start stop (before ++ (field ++ after)) = field := by
  subst offset
  subst width
  rw [slice, List.take_length_add_append, List.drop_left, List.take_left]

/-- A field of four elements, read one by one. -/
theorem slice_four {frame : List α} {start : ℕ} (inside : start + 4 ≤ frame.length) (blank : α) :
    slice start (start + 4) frame = [frame.getD start blank, frame.getD (start + 1) blank,
      frame.getD (start + 2) blank, frame.getD (start + 3) blank] := by
  have read : ∀ offset, start ≤ offset → offset < start + 4 →
      frame.drop offset = frame.getD offset blank :: frame.drop (offset + 1) := by
    intro offset _ _
    have bound : offset < frame.length := by omega
    rw [List.drop_eq_getElem_cons bound, List.getD_eq_getElem?_getD,
      List.getElem?_eq_getElem bound, Option.getD_some]
  rw [slice, List.drop_take, Nat.add_sub_cancel_left, read start (by omega) (by omega),
    read (start + 1) (by omega) (by omega), read (start + 2) (by omega) (by omega),
    read (start + 3) (by omega) (by omega)]
  rfl

theorem setAt_field (before hole field after : List α) {offset : ℕ}
    (start : before.length = offset) (width : hole.length = field.length) :
    setAt (before ++ (hole ++ after)) field offset = .ok (before ++ (field ++ after)) := by
  subst start
  have room : before.length + field.length ≤ (before ++ (hole ++ after)).length := by
    simp only [List.length_append]
    omega
  rw [setAt, if_pos room, List.take_left, List.drop_length_add_append, ← width, List.drop_left,
    List.append_assoc]

/-! ## Numbers -/

/-- The number with these bytes, the most significant first. -/
def fromBigEndian (bytes : List UInt8) : ℕ :=
  bytes.foldl (fun value byte => value * 256 + byte.toNat) 0

theorem fromBigEndian_concat (bytes : List UInt8) (byte : UInt8) :
    fromBigEndian (bytes ++ [byte]) = fromBigEndian bytes * 256 + byte.toNat := by
  rw [fromBigEndian, List.foldl_append]
  rfl

theorem fromBigEndian_bigEndian {width value : ℕ} (fits : value < 256 ^ width) :
    fromBigEndian (bigEndian width value) = value := by
  induction width generalizing value with
  | zero =>
      simp only [Nat.pow_zero] at fits
      rw [bigEndian, fromBigEndian, List.foldl_nil]
      omega
  | succ width ih =>
      have quotient : value / 256 < 256 ^ width := by
        rw [Nat.pow_succ] at fits
        omega
      rw [bigEndian, fromBigEndian_concat, ih quotient, UInt8.toNat_ofNat']
      omega

/-- Four bytes put together by shifts, in a word of 32 bits read as unsigned. -/
def joinWord (first second third fourth : UInt8) : ℕ :=
  (first.toUInt32 <<< 24 ||| second.toUInt32 <<< 16 ||| third.toUInt32 <<< 8 |||
    fourth.toUInt32).toNat

/-- A field of lower bits is added. -/
theorem or_lower_bits {width low : ℕ} (high : ℕ) (fits : low < 2 ^ width) :
    high <<< width ||| low = high * 2 ^ width + low := by
  rw [← Nat.shiftLeft_add_eq_or_of_lt fits, Nat.shiftLeft_eq]

/-- Shifting does not lose the high bit, whatever sign it gives the word. -/
theorem joinWord_eq (first second third fourth : UInt8) :
    joinWord first second third fourth = fromBigEndian [first, second, third, fourth] := by
  have boundFirst := first.toNat_lt
  have boundSecond := second.toNat_lt
  have boundThird := third.toNat_lt
  have boundFourth := fourth.toNat_lt
  have shifted : ∀ byte : UInt8, ∀ width : UInt32, width.toNat ≤ 24 →
      (byte.toUInt32 <<< width).toNat = byte.toNat <<< width.toNat := by
    intro byte width small
    have bound := byte.toNat_lt
    have scaled : byte.toNat * 2 ^ width.toNat < 2 ^ 8 * 2 ^ 24 :=
      Nat.mul_lt_mul_of_lt_of_le bound (Nat.pow_le_pow_right (by decide) small) (by decide)
    have inWord : width.toNat % 32 = width.toNat := Nat.mod_eq_of_lt (by omega)
    rw [UInt32.toNat_shiftLeft, UInt8.toNat_toUInt32, inWord, Nat.shiftLeft_eq]
    exact Nat.mod_eq_of_lt scaled
  rw [joinWord, UInt32.toNat_or, UInt32.toNat_or, UInt32.toNat_or, shifted _ 24 (by decide),
    shifted _ 16 (by decide), shifted _ 8 (by decide), UInt8.toNat_toUInt32, Nat.or_assoc,
    Nat.or_assoc]
  change first.toNat <<< 24 ||| (second.toNat <<< 16 ||| (third.toNat <<< 8 ||| fourth.toNat)) = _
  rw [or_lower_bits third.toNat (by omega), or_lower_bits second.toNat (by omega),
    or_lower_bits first.toNat (by omega)]
  simp only [fromBigEndian, List.foldl_cons, List.foldl_nil]
  omega

end Coding
