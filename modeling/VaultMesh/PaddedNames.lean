import VaultMesh.Coding.Decoding
import VaultMesh.Envelope

/-!
# Padded names

A filename is encrypted as a block of 256 bytes: two bytes for the length, the
UTF-8 bytes of the name, zeros. Both clients cut a name after 254 bytes, wherever
that is, and read the block back with the decoder of their language. The strict
one of `vaultfile.py` fails on a character which was cut; the lenient one of the
console puts a replacement character there, and it drops a byte order mark which
the name starts with.
-/

namespace VaultMesh

open Coding

/-! ## The two clients -/

namespace Vaultfile

def namePad : ℕ :=
  256

def padName (name : String) : Bytes :=
  let b := (utf8 name).take (namePad - 2)
  let out : Bytes := List.replicate namePad 0
  let out := out.set 0 (UInt8.ofNat ((b.length >>> 8) &&& 255))
  let out := out.set 1 (UInt8.ofNat (b.length &&& 255))
  out.take 2 ++ b ++ out.drop (2 + b.length)

def unpadName (bts : Bytes) : Except String String :=
  match bts with
  | first :: second :: _ =>
      let n := first.toNat <<< 8 ||| second.toNat
      orFail (decodeStrict (slice 2 (2 + n) bts)) "UnicodeDecodeError"
  | _ => .error "IndexError"

end Vaultfile

namespace Console

def namePad : ℕ :=
  256

def padName (name : String) : Except String Bytes :=
  let b := slice 0 (namePad - 2) (utf8 name)
  let o : Bytes := List.replicate namePad 0
  let o := o.set 0 (UInt8.ofNat ((b.length >>> 8) &&& 255))
  let o := o.set 1 (UInt8.ofNat (b.length &&& 255))
  setAt o b 2

/-- A byte which is not there counts as zero. -/
def unpadName (bytes : Bytes) : String :=
  let n := (bytes.getD 0 0).toNat <<< 8 ||| (bytes.getD 1 0).toNat
  decodeLenient (slice 2 (2 + n) bytes)

end Console

/-! ## One block -/

/-- The bytes which are left of a name. -/
def nameBytes (name : String) : Bytes :=
  (utf8 name).take 254

theorem length_nameBytes_le (name : String) : (nameBytes name).length ≤ 254 := by
  rw [nameBytes, List.length_take]
  exact Nat.min_le_left _ _

/-- The length, the bytes and the padding of a name. -/
def nameBlock (name : String) : Bytes :=
  [0, UInt8.ofNat (nameBytes name).length] ++
    (nameBytes name ++ List.replicate (254 - (nameBytes name).length) 0)

theorem length_nameBlock (name : String) : (nameBlock name).length = 256 := by
  have bound := length_nameBytes_le name
  simp only [nameBlock, List.length_append, List.length_cons, List.length_nil,
    List.length_replicate]
  omega

/-- The zeroed block with its length bytes. -/
theorem set_length_bytes {b : Bytes} (short : b.length ≤ 254) :
    ((List.replicate 256 (0 : UInt8)).set 0 (UInt8.ofNat ((b.length >>> 8) &&& 255))).set 1
        (UInt8.ofNat (b.length &&& 255)) =
      [0, UInt8.ofNat b.length] ++
        (List.replicate b.length 0 ++ List.replicate (254 - b.length) 0) := by
  have high : (b.length >>> 8) &&& 255 = 0 := by
    rw [Nat.shiftRight_eq_div_pow, Nat.div_eq_of_lt (by omega), Nat.zero_and]
  have low : b.length &&& 255 = b.length := by
    have masked := Nat.and_two_pow_sub_one_eq_mod b.length 8
    rw [Nat.mod_eq_of_lt (by omega)] at masked
    exact masked
  have zeros : List.replicate 254 (0 : UInt8) =
      List.replicate b.length 0 ++ List.replicate (254 - b.length) 0 := by
    rw [List.replicate_append_replicate]
    congr 1
    omega
  rw [high, low, ← zeros]
  rfl

theorem Vaultfile.padName_eq (name : String) : Vaultfile.padName name = nameBlock name := by
  have cut : (utf8 name).take (namePad - 2) = nameBytes name := rfl
  have size : namePad = 256 := rfl
  have zeros : List.drop (2 + (nameBytes name).length)
      ([0, UInt8.ofNat (nameBytes name).length] ++
        (List.replicate (nameBytes name).length 0 ++
          List.replicate (254 - (nameBytes name).length) 0)) =
      List.replicate (254 - (nameBytes name).length) 0 := by
    rw [← List.append_assoc]
    apply List.drop_left'
    rw [List.length_append, List.length_replicate]
    rfl
  unfold padName
  dsimp only
  rw [cut, size, set_length_bytes (length_nameBytes_le name), zeros, nameBlock, List.append_assoc]
  rfl

theorem Console.padName_eq (name : String) : Console.padName name = .ok (nameBlock name) := by
  have cut : slice 0 (namePad - 2) (utf8 name) = nameBytes name := rfl
  have size : namePad = 256 := rfl
  unfold padName
  dsimp only
  rw [cut, size, set_length_bytes (length_nameBytes_le name)]
  exact setAt_field _ _ _ _ rfl (by rw [List.length_replicate])

theorem word_length_nameBytes (name : String) :
    (0 : UInt8).toNat <<< 8 ||| (UInt8.ofNat (nameBytes name).length).toNat =
      (nameBytes name).length := by
  have short := length_nameBytes_le name
  rw [UInt8.toNat_ofNat', Nat.mod_eq_of_lt (by omega), UInt8.toNat_zero, Nat.zero_shiftLeft,
    Nat.zero_or]

theorem slice_nameBlock (name : String) :
    slice 2 (2 + (nameBytes name).length) (nameBlock name) = nameBytes name :=
  slice_field _ _ _ rfl rfl

theorem Vaultfile.unpadName_nameBlock (name : String) :
    Vaultfile.unpadName (nameBlock name) =
      orFail (decodeStrict (nameBytes name)) "UnicodeDecodeError" := by
  change orFail (decodeStrict (slice 2 (2 + ((0 : UInt8).toNat <<< 8 |||
    (UInt8.ofNat (nameBytes name).length).toNat)) (nameBlock name))) _ = _
  rw [word_length_nameBytes, slice_nameBlock]

theorem Console.unpadName_nameBlock (name : String) :
    Console.unpadName (nameBlock name) = decodeLenient (nameBytes name) := by
  change decodeLenient (slice 2 (2 + ((0 : UInt8).toNat <<< 8 |||
    (UInt8.ofNat (nameBytes name).length).toNat)) (nameBlock name)) = _
  rw [word_length_nameBytes, slice_nameBlock]

/-! ## Reading the block back -/

theorem orFail_eq_ok_iff {α : Type} {outcome : Option α} {failure : String} {value : α} :
    orFail outcome failure = .ok value ↔ outcome = some value := by
  cases outcome <;> simp [orFail]

/-- Both clients make one block of a name and read back the same text from it, the name or its
front, exactly if no character is cut and the name starts with no byte order mark. -/
theorem padded_name_survives_iff (name : String) :
    (∃ block text, Vaultfile.padName name = block ∧ Console.padName name = .ok block ∧
      block.length = 256 ∧ Vaultfile.unpadName block = .ok text ∧
      Console.unpadName block = text ∧ ((utf8 name).length ≤ 254 → text = name) ∧
      (254 < (utf8 name).length → text.toList <+: name.toList)) ↔
    name.toList.head? ≠ some byteOrderMark ∧ CutsBetween name 254 := by
  constructor
  · rintro ⟨block, text, python, -, -, strict, lenient, -, -⟩
    rcases (python.symm.trans (Vaultfile.padName_eq name) : block = nameBlock name) with rfl
    rw [Vaultfile.unpadName_nameBlock, orFail_eq_ok_iff, decodeStrict_eq_some_iff] at strict
    rw [Console.unpadName_nameBlock, ← strict, decodeLenient_utf8_eq_iff,
      head?_of_utf8_eq_take (by decide) strict] at lenient
    exact ⟨lenient, (exists_utf8_eq_take_iff name 254).mp ⟨text, strict⟩⟩
  · rintro ⟨unmarked, between⟩
    rcases (exists_utf8_eq_take_iff name 254).mpr between with ⟨text, taken⟩
    refine ⟨nameBlock name, text, Vaultfile.padName_eq name, Console.padName_eq name,
      length_nameBlock name, ?_, ?_, ?_, ?_⟩
    · rw [Vaultfile.unpadName_nameBlock, orFail_eq_ok_iff, decodeStrict_eq_some_iff]
      exact taken
    · rw [Console.unpadName_nameBlock, nameBytes, ← taken, decodeLenient_utf8_eq_iff,
        head?_of_utf8_eq_take (by decide) taken]
      exact unmarked
    · intro short
      rw [List.take_of_length_le short] at taken
      exact utf8_injective taken
    · intro _
      exact isPrefix_of_utf8_eq_take taken

/-- A name of 253 letters and an accented one. -/
def cutName : String :=
  String.ofList (List.replicate 253 'a' ++ ['é'])

/-- The accented letter of one name is cut, and the mark in front of another one is dropped. -/
theorem padded_name_lost :
    Vaultfile.unpadName (Vaultfile.padName cutName) = .error "UnicodeDecodeError" ∧
      (Console.padName cutName).map Console.unpadName =
        .ok (String.ofList (List.replicate 253 'a' ++ [replacementChar])) ∧
      Vaultfile.unpadName (Vaultfile.padName "\uFEFFa") = .ok "\uFEFFa" ∧
      (Console.padName "\uFEFFa").map Console.unpadName = .ok "a" :=
  ⟨by decide +kernel, by decide +kernel, by decide +kernel, by decide +kernel⟩

end VaultMesh
