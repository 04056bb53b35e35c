import VaultMesh.Coding.Frames
import VaultMesh.Domain

/-!
# The content envelope

`vaultfile.py` and the console encrypt files on the client's side and share one
format, `MAGIC | salt(16) | iters(uint32 BE) | iv(12) | ct`. The first writes it
by appending and reads it by slicing, the second sets and joins bytes in typed
arrays. Key derivation and the cipher come from libraries outside the repository;
`CipherSuite` stands for both clients' libraries alike.

Slicing a short frame fails in neither language, so a frame without a whole
header must be refused by the cipher in one client and is refused before it in
the other.
-/

namespace VaultMesh

open Coding

/-- PBKDF2, scrypt and AES-GCM, with the associated data where there is any. -/
structure CipherSuite where
  Key : Type
  pbkdf2 : Bytes → Bytes → ℕ → Option Key
  scrypt : Bytes → Bytes → Key
  encrypt : Key → Bytes → Bytes → Option Bytes → Bytes
  decrypt : Key → Bytes → Bytes → Option Bytes → Option Bytes

/-- What both clients rely on: keys are derived at their count of iterations, decryption inverts
encryption, and a ciphertext ends with a tag of 16 bytes. -/
structure CipherSuite.Lawful (suite : CipherSuite) : Prop where
  derives : ∀ password salt, ∃ key, suite.pbkdf2 password salt 200000 = some key
  decrypt_encrypt : ∀ key iv plaintext aad,
    suite.decrypt key iv (suite.encrypt key iv plaintext aad) aad = some plaintext
  tagged : ∀ key iv ct aad, ct.length < 16 → suite.decrypt key iv ct aad = none

abbrev Salt := {bytes : Bytes // bytes.length = 16}

abbrev Iv := {bytes : Bytes // bytes.length = 12}

/-- The fields behind the magic bytes. -/
structure Envelope where
  salt : Bytes
  iters : ℕ
  iv : Bytes
  ct : Bytes
  deriving DecidableEq, Repr

def orFail {α : Type} (outcome : Option α) (failure : String) : Except String α :=
  match outcome with
  | some value => .ok value
  | none => .error failure

/-! ## The Python client -/

namespace Vaultfile

def magic : Bytes :=
  utf8 "VMB1"

def kdfIters : ℕ :=
  200000

def derive (suite : CipherSuite) (pw : String) (salt : Bytes) (iters : ℕ) :
    Except String suite.Key :=
  orFail (suite.pbkdf2 (utf8 pw) salt iters) "ValueError"

/-- `encrypt`, with the random bytes it draws. -/
def encrypt (suite : CipherSuite) (pw : String) (plaintext : Bytes) (salt : Salt) (iv : Iv) :
    Except String Bytes := do
  let key ← derive suite pw salt.val kdfIters
  let ct := suite.encrypt key iv.val plaintext (some magic)
  .ok (magic ++ salt.val ++ bigEndian 4 kdfIters ++ iv.val ++ ct)

def split (blob : Bytes) : Envelope where
  salt := slice 4 20 blob
  iters := fromBigEndian (slice 20 24 blob)
  iv := slice 24 36 blob
  ct := blob.drop 36

/-- A hexadecimal digit of either case. -/
def hexValue (digit : Char) : Option ℕ :=
  if '0' ≤ digit ∧ digit ≤ '9' then some (digit.toNat - '0'.toNat)
  else if 'a' ≤ digit ∧ digit ≤ 'f' then some (digit.toNat - 'a'.toNat + 10)
  else if 'A' ≤ digit ∧ digit ≤ 'F' then some (digit.toNat - 'A'.toNat + 10)
  else none

def isSpace (char : Char) : Bool :=
  decide (char = ' ' ∨ '\t' ≤ char ∧ char ≤ '\r')

/-- `bytes.fromhex`: pairs of digits, with white space between them. -/
def fromHex : List Char → Option Bytes
  | [] => some []
  | [digit] => if isSpace digit then some [] else none
  | high :: low :: rest =>
      if isSpace high then
        fromHex (low :: rest)
      else do
        let upper ← hexValue high
        let lower ← hexValue low
        let bytes ← fromHex rest
        some (UInt8.ofNat (upper * 16 + lower) :: bytes)

/-- Backups from before the envelope carry no salt. -/
def decryptLegacy (suite : CipherSuite) (pw : String) (blob : Bytes)
    (legacySaltHex : Option String) : Except String Bytes := do
  let digits := legacySaltHex.getD ""
  if digits = "" then
    .error "unrecognized ciphertext and no legacy kdf_salt to fall back on"
  else do
    let salt ← orFail (fromHex digits.toList) "ValueError"
    orFail (suite.decrypt (suite.scrypt (utf8 pw) salt) (blob.take 12) (blob.drop 12) none)
      "InvalidTag"

def decrypt (suite : CipherSuite) (pw : String) (blob : Bytes) (legacySaltHex : Option String) :
    Except String Bytes :=
  if blob.take 4 = magic then do
    let envelope := split blob
    let key ← derive suite pw envelope.salt envelope.iters
    orFail (suite.decrypt key envelope.iv envelope.ct (some magic)) "InvalidTag"
  else
    decryptLegacy suite pw blob legacySaltHex

end Vaultfile

/-! ## The console -/

namespace Console

def magic : Bytes :=
  [0x56, 0x4d, 0x42, 0x31]

def kdfIters : ℕ :=
  200000

def deriveKey (suite : CipherSuite) (pass : String) (salt : Bytes) (iters : ℕ) :
    Except String suite.Key :=
  orFail (suite.pbkdf2 (utf8 pass) salt iters) "OperationError"

/-- One byte of a number, `(value >>> shift) & 255`. -/
def byteAt (value shift : ℕ) : UInt8 :=
  UInt8.ofNat ((value >>> shift) &&& 255)

/-- `encryptBytes`, with the random bytes it draws. -/
def encryptBytes (suite : CipherSuite) (pass : String) (bytes : Bytes) (salt : Salt) (iv : Iv) :
    Except String Bytes := do
  let key ← deriveKey suite pass salt.val kdfIters
  let ct := suite.encrypt key iv.val bytes (some magic)
  let f ← setAt (List.replicate (36 + ct.length) 0) magic 0
  let f ← setAt f salt.val 4
  let f := ((f.set 20 (byteAt kdfIters 24)).set 21 (byteAt kdfIters 16)).set 22 (byteAt kdfIters 8)
  let f ← setAt (f.set 23 (byteAt kdfIters 0)) iv.val 24
  setAt f ct 36

def split (f : Bytes) : Envelope where
  salt := slice 4 20 f
  iters := joinWord (f.getD 20 0) (f.getD 21 0) (f.getD 22 0) (f.getD 23 0)
  iv := slice 24 36 f
  ct := f.drop 36

def decryptBytes (suite : CipherSuite) (pass : String) (f : Bytes) : Except String Bytes :=
  if f.length < 36 ∨ f[0]? ≠ some 0x56 ∨ f[1]? ≠ some 0x4d ∨ f[2]? ≠ some 0x42 ∨
      f[3]? ≠ some 0x31 then
    .error "not a VaultMesh (VMB1) file"
  else do
    let envelope := split f
    let key ← deriveKey suite pass envelope.salt envelope.iters
    orFail (suite.decrypt key envelope.iv envelope.ct (some magic)) "OperationError"

end Console

/-! ## One format -/

namespace Envelope

/-- The fields have the widths of the format. -/
structure WellFormed (envelope : Envelope) : Prop where
  salt : envelope.salt.length = 16
  iters : envelope.iters < 2 ^ 32
  iv : envelope.iv.length = 12

/-- `MAGIC | salt(16) | iters(uint32 BE) | iv(12) | ct`. -/
def frame (envelope : Envelope) : Bytes :=
  Vaultfile.magic ++ (envelope.salt ++ (bigEndian 4 envelope.iters ++ (envelope.iv ++ envelope.ct)))

theorem length_frame {envelope : Envelope} (wellFormed : envelope.WellFormed) :
    envelope.frame.length = 36 + envelope.ct.length := by
  have magicLength : Vaultfile.magic.length = 4 := by decide
  simp only [frame, List.length_append, magicLength, wellFormed.salt, wellFormed.iv,
    length_bigEndian]
  omega

end Envelope

namespace Vaultfile

/-- Every field is read where it was written, and every count of iterations as it was. -/
theorem split_frame {envelope : Envelope} (wellFormed : envelope.WellFormed) :
    split envelope.frame = envelope := by
  have magicLength : magic.length = 4 := by decide
  have saltLength := wellFormed.salt
  have ivLength := wellFormed.iv
  have few : envelope.iters < 256 ^ 4 := wellFormed.iters
  have saltRead : slice 4 20 envelope.frame = envelope.salt :=
    slice_field _ _ _ magicLength (by omega)
  have itersRead : slice 20 24 envelope.frame = bigEndian 4 envelope.iters := by
    rw [Envelope.frame, ← List.append_assoc]
    apply slice_field
    · rw [List.length_append]
      omega
    · rw [length_bigEndian]
  have ivRead : slice 24 36 envelope.frame = envelope.iv := by
    rw [Envelope.frame, ← List.append_assoc, ← List.append_assoc]
    apply slice_field
    · simp only [List.length_append, length_bigEndian]
      omega
    · omega
  have ctRead : envelope.frame.drop 36 = envelope.ct := by
    rw [Envelope.frame, ← List.append_assoc, ← List.append_assoc, ← List.append_assoc]
    apply List.drop_left'
    simp only [List.length_append, length_bigEndian]
    omega
  rw [split, saltRead, itersRead, ivRead, ctRead, fromBigEndian_bigEndian few]

theorem take_frame (envelope : Envelope) : envelope.frame.take 4 = magic :=
  List.take_left' (by decide)

end Vaultfile

/-- Appending writes the format. -/
theorem Vaultfile.encrypt_eq (suite : CipherSuite) (pw : String) (plaintext : Bytes) (salt : Salt)
    (iv : Iv) {key : suite.Key}
    (derived : Vaultfile.derive suite pw salt.val Vaultfile.kdfIters = .ok key) :
    Vaultfile.encrypt suite pw plaintext salt iv = .ok (Envelope.frame ⟨salt.val,
      Vaultfile.kdfIters, iv.val,
      suite.encrypt key iv.val plaintext (some Vaultfile.magic)⟩) := by
  rw [Vaultfile.encrypt, derived]
  simp only [Envelope.frame, List.append_assoc]
  rfl

theorem Console.magic_eq : Console.magic = Vaultfile.magic := by
  decide

/-- Setting the fields into a blank buffer writes the format too. -/
theorem Console.encryptBytes_eq (suite : CipherSuite) (pass : String) (bytes : Bytes)
    (salt : Salt) (iv : Iv) {key : suite.Key}
    (derived : Console.deriveKey suite pass salt.val Console.kdfIters = .ok key) :
    Console.encryptBytes suite pass bytes salt iv = .ok (Envelope.frame ⟨salt.val,
      Console.kdfIters, iv.val, suite.encrypt key iv.val bytes (some Console.magic)⟩) := by
  let ct := suite.encrypt key iv.val bytes (some Console.magic)
  let blank : ℕ → Bytes := fun count => List.replicate (count + ct.length) 0
  have magicLength : Console.magic.length = 4 := by decide
  have saltLength := salt.property
  have ivLength := iv.property
  have blankSplit : ∀ width count,
      blank (width + count) = List.replicate width 0 ++ blank count := by
    intro width count
    rw [List.replicate_append_replicate, ← Nat.add_assoc]
  have magicSet : setAt (blank 36) Console.magic 0 = .ok (Console.magic ++ blank 32) := by
    rw [blankSplit 4 32]
    exact setAt_field [] _ _ _ rfl rfl
  have saltSet : setAt (Console.magic ++ blank 32) salt.val 4 =
      .ok (Console.magic ++ (salt.val ++ blank 16)) := by
    rw [blankSplit 16 16]
    apply setAt_field _ _ _ _ magicLength
    rw [List.length_replicate, saltLength]
  have header : (Console.magic ++ salt.val).length = 20 := by
    rw [List.length_append]
    omega
  have itersSet : ((((Console.magic ++ (salt.val ++ blank 16)).set 20 (byteAt kdfIters 24)).set 21
      (byteAt kdfIters 16)).set 22 (byteAt kdfIters 8)).set 23 (byteAt kdfIters 0) =
        (Console.magic ++ salt.val) ++ (bigEndian 4 kdfIters ++ blank 12) := by
    rw [blankSplit 4 12, ← List.append_assoc]
    simp only [List.replicate_succ, List.replicate_zero, List.cons_append, List.nil_append,
      List.set_append_right, header, Nat.le_refl, Nat.reduceLeDiff, Nat.sub_self, Nat.reduceSub,
      List.set_cons_zero, List.set_cons_succ]
    rfl
  have ivSet : setAt ((Console.magic ++ salt.val) ++ (bigEndian 4 kdfIters ++ blank 12)) iv.val 24 =
      .ok ((Console.magic ++ salt.val ++ bigEndian 4 kdfIters) ++ (iv.val ++ blank 0)) := by
    rw [blankSplit 12 0, ← List.append_assoc]
    apply setAt_field
    · rw [List.length_append, header, length_bigEndian]
    · rw [List.length_replicate, ivLength]
  have ctSet : setAt ((Console.magic ++ salt.val ++ bigEndian 4 kdfIters) ++ (iv.val ++ blank 0))
      ct 36 =
        .ok ((Console.magic ++ salt.val ++ bigEndian 4 kdfIters ++ iv.val) ++ (ct ++ [])) := by
    rw [← List.append_assoc, ← List.append_nil (blank 0)]
    apply setAt_field
    · rw [List.length_append, List.length_append, header, length_bigEndian, ivLength]
    · rw [List.length_replicate, Nat.zero_add]
  rw [encryptBytes, derived]
  change (do
    let f ← setAt (blank 36) Console.magic 0
    let f ← setAt f salt.val 4
    let f := ((f.set 20 (byteAt kdfIters 24)).set 21 (byteAt kdfIters 16)).set 22
      (byteAt kdfIters 8)
    let f ← setAt (f.set 23 (byteAt kdfIters 0)) iv.val 24
    setAt f ct 36) = _
  simp only [magicSet, saltSet, itersSet, ivSet, ctSet, bind, Except.bind]
  simp only [Envelope.frame, List.append_assoc, List.append_nil]
  rfl

/-- Where a whole header is present, both clients read the same fields. -/
theorem Console.split_eq {f : Bytes} (whole : 36 ≤ f.length) :
    Console.split f = Vaultfile.split f := by
  have joined : slice 20 24 f = [f.getD 20 0, f.getD 21 0, f.getD 22 0, f.getD 23 0] :=
    slice_four (by omega) 0
  rw [Console.split, Vaultfile.split, joined, joinWord_eq]

/-- The console checks the magic byte by byte. -/
theorem Console.checks_iff (f : Bytes) :
    (f.length < 36 ∨ f[0]? ≠ some 0x56 ∨ f[1]? ≠ some 0x4d ∨ f[2]? ≠ some 0x42 ∨
      f[3]? ≠ some 0x31) ↔ ¬(36 ≤ f.length ∧ f.take 4 = Vaultfile.magic) := by
  rw [← magic_eq, magic]
  by_cases whole : 36 ≤ f.length
  · match f with
    | [] | [_] | [_, _] | [_, _, _] => simp at whole
    | first :: second :: third :: fourth :: rest =>
        have long : ¬(first :: second :: third :: fourth :: rest).length < 36 := by omega
        simp only [long, whole, false_or, true_and, List.getElem?_cons_zero,
          List.getElem?_cons_succ, List.take_succ_cons, List.take_zero, List.cons.injEq, and_true,
          ne_eq, Option.some.injEq]
        tauto
  · simp only [whole, false_and, not_false_eq_true, iff_true]
    left
    omega

/-! ## Either client reads what the other wrote -/

/-- What is in an envelope, if it opens under the passphrase. -/
def Envelope.content (envelope : Envelope) (suite : CipherSuite) (pass : String) : Option Bytes :=
  (suite.pbkdf2 (utf8 pass) envelope.salt envelope.iters).bind fun key =>
    suite.decrypt key envelope.iv envelope.ct (some Vaultfile.magic)

theorem Vaultfile.decrypt_eq_ok_iff {suite : CipherSuite} {pw : String} {blob plaintext : Bytes}
    {legacySaltHex : Option String} (recognized : blob.take 4 = Vaultfile.magic) :
    Vaultfile.decrypt suite pw blob legacySaltHex = .ok plaintext ↔
      (Vaultfile.split blob).content suite pw = some plaintext := by
  rw [Vaultfile.decrypt, if_pos recognized, Envelope.content]
  simp only [derive]
  cases suite.pbkdf2 (utf8 pw) (split blob).salt (split blob).iters with
  | none => simp [orFail, bind, Except.bind]
  | some key =>
      simp only [orFail, bind, Except.bind, Option.bind_some]
      cases suite.decrypt key (split blob).iv (split blob).ct (some magic) <;> simp

theorem Console.decryptBytes_eq_ok_iff {suite : CipherSuite} {pass : String}
    {f plaintext : Bytes} :
    Console.decryptBytes suite pass f = .ok plaintext ↔
      36 ≤ f.length ∧ f.take 4 = Vaultfile.magic ∧
        (Console.split f).content suite pass = some plaintext := by
  by_cases header : 36 ≤ f.length ∧ f.take 4 = Vaultfile.magic
  · have passed := fun refused => (Console.checks_iff f).mp refused header
    rw [Console.decryptBytes, if_neg passed, Envelope.content]
    simp only [header, true_and, deriveKey, magic_eq]
    cases suite.pbkdf2 (utf8 pass) (split f).salt (split f).iters with
    | none => simp [orFail, bind, Except.bind]
    | some key =>
        simp only [orFail, bind, Except.bind, Option.bind_some]
        cases suite.decrypt key (split f).iv (split f).ct (some Vaultfile.magic) <;> simp
  · have refused := (Console.checks_iff f).mpr header
    rw [Console.decryptBytes, if_pos refused]
    simp only [reduceCtorEq, false_iff]
    rintro ⟨whole, recognized, -⟩
    exact header ⟨whole, recognized⟩

/-- Without a whole header nothing is left for the tag. -/
theorem CipherSuite.Lawful.content_of_short {suite : CipherSuite} (lawful : suite.Lawful)
    {f : Bytes} (short : f.length < 36) (pass : String) :
    (Vaultfile.split f).content suite pass = none := by
  have nothing : f.drop 36 = [] := List.drop_eq_nil_of_le (by omega)
  simp only [Envelope.content, Vaultfile.split, nothing]
  cases suite.pbkdf2 (utf8 pass) (slice 4 20 f) (fromBigEndian (slice 20 24 f)) with
  | none => rfl
  | some key => exact lawful.tagged key _ [] _ (by decide)

/-- Both clients write an envelope with this content. -/
theorem CipherSuite.Lawful.written {suite : CipherSuite} (lawful : suite.Lawful) (pass : String)
    (plaintext : Bytes) (salt : Salt) (iv : Iv) :
    ∃ envelope : Envelope, envelope.WellFormed ∧
      Vaultfile.encrypt suite pass plaintext salt iv = .ok envelope.frame ∧
      Console.encryptBytes suite pass plaintext salt iv = .ok envelope.frame ∧
      envelope.content suite pass = some plaintext := by
  rcases lawful.derives (utf8 pass) salt.val with ⟨key, derived⟩
  have derivedPython : Vaultfile.derive suite pass salt.val Vaultfile.kdfIters = .ok key := by
    rw [Vaultfile.derive, Vaultfile.kdfIters, derived, orFail]
  have derivedConsole : Console.deriveKey suite pass salt.val Console.kdfIters = .ok key := by
    rw [Console.deriveKey, Console.kdfIters, derived, orFail]
  refine ⟨⟨salt.val, Vaultfile.kdfIters, iv.val,
    suite.encrypt key iv.val plaintext (some Vaultfile.magic)⟩, ?_, ?_, ?_, ?_⟩
  · exact ⟨salt.property, (by decide : Vaultfile.kdfIters < 2 ^ 32), iv.property⟩
  · exact Vaultfile.encrypt_eq suite pass plaintext salt iv derivedPython
  · exact Console.encryptBytes_eq suite pass plaintext salt iv derivedConsole
  · rw [Envelope.content, Vaultfile.kdfIters, derived, Option.bind_some, lawful.decrypt_encrypt]

/-- Each client decrypts the files of the other, both read every well-formed header alike, and of
any bytes behind the magic both make the same or nothing. -/
theorem clients_share_envelope (suite : CipherSuite) (lawful : suite.Lawful) :
    (∀ pass plaintext salt iv legacySaltHex, ∃ f,
      Console.encryptBytes suite pass plaintext salt iv = .ok f ∧
        Vaultfile.decrypt suite pass f legacySaltHex = .ok plaintext) ∧
    (∀ pass plaintext salt iv, ∃ f,
      Vaultfile.encrypt suite pass plaintext salt iv = .ok f ∧
        Console.decryptBytes suite pass f = .ok plaintext) ∧
    (∀ envelope : Envelope, envelope.WellFormed →
      Vaultfile.split envelope.frame = envelope ∧ Console.split envelope.frame = envelope) ∧
    ∀ pass f legacySaltHex, f.take 4 = Vaultfile.magic →
      ((∃ failure, Vaultfile.decrypt suite pass f legacySaltHex = .error failure) ∧
        ∃ failure, Console.decryptBytes suite pass f = .error failure) ∨
      (36 ≤ f.length ∧ Vaultfile.split f = Console.split f ∧ ∃ plaintext,
        Vaultfile.decrypt suite pass f legacySaltHex = .ok plaintext ∧
          Console.decryptBytes suite pass f = .ok plaintext) := by
  have splitSame : ∀ envelope : Envelope, envelope.WellFormed →
      Console.split envelope.frame = envelope := by
    intro envelope wellFormed
    have whole : 36 ≤ envelope.frame.length := by
      rw [Envelope.length_frame wellFormed]
      omega
    rw [Console.split_eq whole, Vaultfile.split_frame wellFormed]
  refine ⟨?_, ?_, ?_, ?_⟩
  · intro pass plaintext salt iv legacySaltHex
    rcases lawful.written pass plaintext salt iv with ⟨envelope, wellFormed, -, encrypted, content⟩
    refine ⟨envelope.frame, encrypted, ?_⟩
    rw [Vaultfile.decrypt_eq_ok_iff (Vaultfile.take_frame envelope),
      Vaultfile.split_frame wellFormed, content]
  · intro pass plaintext salt iv
    rcases lawful.written pass plaintext salt iv with ⟨envelope, wellFormed, encrypted, -, content⟩
    refine ⟨envelope.frame, encrypted, ?_⟩
    rw [Console.decryptBytes_eq_ok_iff, splitSame envelope wellFormed]
    refine ⟨?_, Vaultfile.take_frame envelope, content⟩
    rw [Envelope.length_frame wellFormed]
    omega
  · intro envelope wellFormed
    exact ⟨Vaultfile.split_frame wellFormed, splitSame envelope wellFormed⟩
  · intro pass f legacySaltHex recognized
    by_cases whole : 36 ≤ f.length ∧ ((Vaultfile.split f).content suite pass).isSome
    · rcases whole with ⟨header, some⟩
      rcases Option.isSome_iff_exists.mp some with ⟨plaintext, content⟩
      have same := Console.split_eq header
      refine Or.inr ⟨header, same.symm, plaintext, ?_, ?_⟩
      · exact (Vaultfile.decrypt_eq_ok_iff recognized).mpr content
      · rw [Console.decryptBytes_eq_ok_iff, same]
        exact ⟨header, recognized, content⟩
    · left
      constructor
      · cases outcome : Vaultfile.decrypt suite pass f legacySaltHex with
        | error failure => exact ⟨failure, rfl⟩
        | ok plaintext =>
            have content := (Vaultfile.decrypt_eq_ok_iff recognized).mp outcome
            refine absurd ⟨?_, Option.isSome_of_mem content⟩ whole
            by_contra short
            cases (lawful.content_of_short (by omega) pass).symm.trans content
      · cases outcome : Console.decryptBytes suite pass f with
        | error failure => exact ⟨failure, rfl⟩
        | ok plaintext =>
            rcases Console.decryptBytes_eq_ok_iff.mp outcome with ⟨header, -, content⟩
            rw [Console.split_eq header] at content
            exact absurd ⟨header, Option.isSome_of_mem content⟩ whole

/-- Keys are what they are derived from, and every tag is zero. -/
def plainSuite : CipherSuite where
  Key := Bytes × Bytes × ℕ
  pbkdf2 password salt iters := if iters = 0 then none else some (password, salt, iters)
  scrypt password salt := (password, salt, 0)
  encrypt _ _ plaintext _ := plaintext ++ List.replicate 16 0
  decrypt _ _ ct _ :=
    if 16 ≤ ct.length ∧ ct.drop (ct.length - 16) = List.replicate 16 0 then
      some (ct.take (ct.length - 16))
    else
      none

theorem plainSuite_lawful : plainSuite.Lawful where
  derives password salt := ⟨(password, salt, 200000), rfl⟩
  decrypt_encrypt := by
    intro key iv plaintext aad
    simp [plainSuite]
  tagged := by
    intro key iv ct aad short
    simp only [plainSuite]
    rw [if_neg (by omega)]

/-- Three bytes encrypted in the browser. -/
theorem clients_share_envelope_plain :
    ∃ f, Console.encryptBytes plainSuite "secret" [1, 2, 3] ⟨List.replicate 16 5, rfl⟩
        ⟨List.replicate 12 6, rfl⟩ = .ok f ∧
      Vaultfile.decrypt plainSuite "secret" f none = .ok [1, 2, 3] :=
  (clients_share_envelope plainSuite plainSuite_lawful).1 "secret" [1, 2, 3] _ _ none

end VaultMesh
