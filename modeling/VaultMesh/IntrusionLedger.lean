import VaultMesh.Coding.HashChains
import VaultMesh.Coding.Lines
import VaultMesh.Coding.Texts
import VaultMesh.Ports

/-!
# The intrusion ledger

`LedgerIntrusionSink` appends footprints of rejected callers to a hash chain.
The hash of an entry commits to its number, to the hash before it and to the
bytes of its record, in which the fields are only separated by NUL bytes. Two
records may therefore have the same bytes: a missing fingerprint is written like
an empty one, and a field may itself hold a NUL byte. `IntrusionRecord.SameText`
says which records these are. Up to them the last hash determines the ledger.

Removing entries is noticed unless they are removed from the end.

A digest has 32 bytes, so no digest is injective. What is assumed of SHA-256 is
that it has no collision among the messages of the ledgers compared.
-/

namespace VaultMesh

open Coding

@[ext]
structure IntrusionRecord where
  sourceIp : String
  ja3 : Option String
  attackClass : String
  rejectionReason : String
  atMillis : UInt64
  deriving DecidableEq, Repr

@[ext]
structure LedgerEntry where
  seq : UInt64
  record : IntrusionRecord
  prevHash : String
  hash : String
  deriving DecidableEq, Repr

/-- What SHA-256 returns. -/
structure Digest where
  bytes : Bytes
  length_eq : bytes.length = 32
  deriving DecidableEq

/-- The hash before the first entry. -/
def genesis : String :=
  "0000000000000000000000000000000000000000000000000000000000000000"

/-- What `entry_hash` feeds to the digest. -/
def entryMessage (seq : UInt64) (prevHash : String) (record : IntrusionRecord) : Bytes :=
  bigEndian 8 seq.toNat ++ utf8 prevHash ++ utf8 record.sourceIp ++ [0] ++
    utf8 (record.ja3.getD "") ++ [0] ++ utf8 record.attackClass ++ [0] ++
    utf8 record.rejectionReason ++ [0] ++ bigEndian 8 record.atMillis.toNat

def entryHash (sha256 : Bytes → Digest) (seq : UInt64) (prevHash : String)
    (record : IntrusionRecord) : String :=
  hex (sha256 (entryMessage seq prevHash record)).bytes

def LedgerEntry.message (entry : LedgerEntry) : Bytes :=
  entryMessage entry.seq entry.prevHash entry.record

/-- The entries of a ledger, a vector which the language bounds by the largest object size. -/
structure LedgerIntrusionSink where
  entries : List LedgerEntry
  length_lt : entries.length < 2 ^ 63

namespace LedgerIntrusionSink

def new : LedgerIntrusionSink := ⟨[], Nat.two_pow_pos 63⟩

/-- The entry which `append` adds. -/
def nextEntry (sha256 : Bytes → Digest) (ledger : LedgerIntrusionSink) (record : IntrusionRecord) :
    LedgerEntry :=
  let seq := UInt64.ofNat ledger.entries.length
  let prevHash := (ledger.entries.getLast?.map LedgerEntry.hash).getD genesis
  ⟨seq, record, prevHash, entryHash sha256 seq prevHash record⟩

/-- Adding an entry panics when the vector cannot grow any more. -/
def append (sha256 : Bytes → Digest) (ledger : LedgerIntrusionSink) (record : IntrusionRecord) :
    Except Failure LedgerIntrusionSink :=
  let grown := ledger.entries ++ [ledger.nextEntry sha256 record]
  if fits : grown.length < 2 ^ 63 then .ok ⟨grown, fits⟩
  else .error (.panicked "capacity overflow")

def noteUnauthorizedShardAccess (sha256 : Bytes → Digest) (ledger : LedgerIntrusionSink)
    (ns : NamespaceId) (blobId : BlobId) : Except Failure LedgerIntrusionSink :=
  ledger.append sha256
    { sourceIp := "peer"
      ja3 := none
      attackClass := "unauthorized_shard_access"
      rejectionReason := "namespace=" ++ ns.value ++ " blob=" ++ blobId.value
      atMillis := 0 }

def appendAll (sha256 : Bytes → Digest) :
    List IntrusionRecord → LedgerIntrusionSink → Except Failure LedgerIntrusionSink
  | [], ledger => .ok ledger
  | record :: records, ledger => do
      let grown ← ledger.append sha256 record
      appendAll sha256 records grown

/-- The loop of `verify` from position `index` on, with the hash of the entry before. -/
def verifyFrom (sha256 : Bytes → Digest) : ℕ → String → List LedgerEntry → Bool
  | _, _, [] => true
  | index, prev, entry :: entries =>
      if entry.seq ≠ UInt64.ofNat index ∨ entry.prevHash ≠ prev then
        false
      else if entry.hash ≠ entryHash sha256 entry.seq entry.prevHash entry.record then
        false
      else
        verifyFrom sha256 (index + 1) entry.hash entries

/-- Recompute the whole chain. -/
def verify (sha256 : Bytes → Digest) (ledger : LedgerIntrusionSink) : Bool :=
  verifyFrom sha256 0 genesis ledger.entries

def messages (ledger : LedgerIntrusionSink) : List Bytes :=
  ledger.entries.map LedgerEntry.message

/-- Another record in place of one, all hashes left as they are. -/
def replaceRecord (ledger : LedgerIntrusionSink) (position : ℕ) (record : IntrusionRecord) :
    LedgerIntrusionSink :=
  ⟨ledger.entries.modify position fun entry => { entry with record := record }, by
    simpa using ledger.length_lt⟩

end LedgerIntrusionSink

/-! ## The bytes of a record -/

namespace IntrusionRecord

/-- The fields one after another, separated by NUL characters. -/
def text (record : IntrusionRecord) : String :=
  record.sourceIp ++ "\x00" ++ record.ja3.getD "" ++ "\x00" ++ record.attackClass ++ "\x00" ++
    record.rejectionReason

/-- The records have the same bytes. -/
def SameText (left right : IntrusionRecord) : Prop :=
  left.text = right.text ∧ left.atMillis = right.atMillis

instance (left right : IntrusionRecord) : Decidable (left.SameText right) :=
  inferInstanceAs (Decidable (_ ∧ _))

/-- Without NUL characters before the last field, only a missing fingerprint can be confused. -/
theorem SameText.eq {left right : IntrusionRecord} (same : left.SameText right)
    (leftFree : '\x00' ∉ left.sourceIp.toList ++ (left.ja3.getD "").toList ++
      left.attackClass.toList)
    (rightFree : '\x00' ∉ right.sourceIp.toList ++ (right.ja3.getD "").toList ++
      right.attackClass.toList)
    (leftNamed : left.ja3 ≠ some "") (rightNamed : right.ja3 ≠ some "") : left = right := by
  rcases same with ⟨sameText, sameTime⟩
  have chars := congrArg String.toList sameText
  have separator : "\x00".toList = ['\x00'] := rfl
  simp only [text, String.toList_append, separator, List.append_assoc, List.cons_append,
    List.nil_append] at chars
  simp only [List.mem_append, not_or] at leftFree rightFree
  rcases append_separator_inj leftFree.1.1 rightFree.1.1 chars with ⟨sourceIp, chars⟩
  rcases append_separator_inj leftFree.1.2 rightFree.1.2 chars with ⟨ja3, chars⟩
  rcases append_separator_inj leftFree.2 rightFree.2 chars with ⟨attackClass, reason⟩
  rw [String.toList_inj] at sourceIp ja3 attackClass reason
  have sameJa3 : left.ja3 = right.ja3 := by
    cases leftJa3 : left.ja3 <;> cases rightJa3 : right.ja3 <;> simp_all
  exact IntrusionRecord.ext sourceIp sameJa3 attackClass reason sameTime

end IntrusionRecord

theorem entryMessage_eq (seq : UInt64) (prevHash : String) (record : IntrusionRecord) :
    entryMessage seq prevHash record = bigEndian 8 seq.toNat ++ (utf8 prevHash ++
      (utf8 record.text ++ ([0] ++ bigEndian 8 record.atMillis.toNat))) := by
  have separator : utf8 "\x00" = [0] := by decide
  simp [entryMessage, IntrusionRecord.text, separator]

theorem bigEndian_eq_iff (left right : UInt64) :
    bigEndian 8 left.toNat = bigEndian 8 right.toNat ↔ left = right := by
  constructor
  · intro same
    apply UInt64.toNat_inj.mp
    exact bigEndian_inj left.toNat_lt right.toNat_lt same
  · rintro rfl
    rfl

/-- A message determines the hash before it and the record, up to records of the same text. -/
theorem entryMessage_inj {seq : UInt64} {prevHash prevHash' : String}
    {record record' : IntrusionRecord}
    (length : (utf8 prevHash).length = (utf8 prevHash').length) :
    entryMessage seq prevHash record = entryMessage seq prevHash' record' ↔
      prevHash = prevHash' ∧ record.SameText record' := by
  simp only [entryMessage_eq, List.append_cancel_left_eq]
  constructor
  · intro same
    rcases List.append_inj same length with ⟨samePrev, sameRest⟩
    rcases List.append_inj' sameRest (by simp) with ⟨sameText, sameTime⟩
    simp only [List.append_cancel_left_eq, bigEndian_eq_iff] at sameTime
    exact ⟨utf8_injective samePrev, utf8_injective sameText, sameTime⟩
  · rintro ⟨rfl, sameText, sameTime⟩
    rw [sameText, sameTime]

/-! ## Verification -/

/-- What `verify` checks of one entry. -/
structure EntryFits (sha256 : Bytes → Digest) (index : ℕ) (prev : String) (entry : LedgerEntry) :
    Prop where
  seq : entry.seq = UInt64.ofNat index
  prevHash : entry.prevHash = prev
  hash : entry.hash = entryHash sha256 entry.seq entry.prevHash entry.record

/-- No two of the messages have the same digest. -/
def Uncollided (sha256 : Bytes → Digest) (messages : List Bytes) : Prop :=
  ∀ message ∈ messages, ∀ other ∈ messages, sha256 message = sha256 other → message = other

namespace LedgerIntrusionSink

variable {sha256 : Bytes → Digest}

theorem verifyFrom_iff (index : ℕ) (prev : String) (entries : List LedgerEntry) :
    verifyFrom sha256 index prev entries = true ↔
      Chained LedgerEntry.hash (EntryFits sha256) index prev entries := by
  induction entries generalizing index prev with
  | nil => simp [verifyFrom, Chained]
  | cons entry entries ih =>
      simp only [verifyFrom, Chained, ← ih]
      constructor
      · intro verified
        split at verified
        · cases verified
        · next placed =>
            split at verified
            · cases verified
            · next hashed =>
                simp only [ne_eq, not_or, not_not] at placed hashed
                exact ⟨⟨placed.1, placed.2, hashed⟩, verified⟩
      · rintro ⟨fits, verified⟩
        have placed : ¬(entry.seq ≠ UInt64.ofNat index ∨ entry.prevHash ≠ prev) := by
          simp [fits.seq, fits.prevHash]
        rw [if_neg placed, if_neg (not_not.mpr fits.hash)]
        exact verified

theorem verify_iff (ledger : LedgerIntrusionSink) :
    ledger.verify sha256 = true ↔
      Chained LedgerEntry.hash (EntryFits sha256) 0 genesis ledger.entries :=
  verifyFrom_iff 0 genesis ledger.entries

theorem append_ok {ledger grown : LedgerIntrusionSink} {record : IntrusionRecord}
    (appended : ledger.append sha256 record = .ok grown) :
    grown.entries = ledger.entries ++ [ledger.nextEntry sha256 record] := by
  simp only [append] at appended
  split at appended
  · rcases Except.ok.inj appended with rfl
    rfl
  · cases appended

theorem append_error {ledger : LedgerIntrusionSink} {record : IntrusionRecord} {failure : Failure}
    (failed : ledger.append sha256 record = .error failure) :
    failure = .panicked "capacity overflow" := by
  simp only [append] at failed
  split at failed
  · cases failed
  · exact (Except.error.inj failed).symm

theorem append_verifies {ledger grown : LedgerIntrusionSink} {record : IntrusionRecord}
    (appended : ledger.append sha256 record = .ok grown)
    (verified : ledger.verify sha256 = true) : grown.verify sha256 = true := by
  simp only [append] at appended
  split at appended
  · rcases Except.ok.inj appended with rfl
    simp only [verify_iff, chained_append, Chained, Nat.zero_add, and_true] at verified ⊢
    refine ⟨verified, ?_, ?_, ?_⟩
    · rfl
    · exact (headHash_eq_getLast? genesis ledger.entries).symm
    · rfl
  · cases appended

/-- Every ledger built by appending passes its own check. -/
theorem appendAll_verifies {records : List IntrusionRecord} {first ledger : LedgerIntrusionSink}
    (built : appendAll sha256 records first = .ok ledger)
    (verified : first.verify sha256 = true) : ledger.verify sha256 = true := by
  induction records generalizing first with
  | nil =>
      rcases Except.ok.inj built with rfl
      exact verified
  | cons record records ih =>
      simp only [appendAll] at built
      cases appended : first.append sha256 record with
      | error failure =>
          rw [appended] at built
          cases built
      | ok grown =>
          rw [appended] at built
          exact ih built (append_verifies appended verified)

theorem toNat_position {index : ℕ} (bound : index < 2 ^ 63) :
    (UInt64.ofNat index).toNat = index := by
  simp only [UInt64.toNat_ofNat']
  omega

/-- The number of the last entry tells how many there are. -/
theorem length_eq_of_last {ledger : LedgerIntrusionSink} (verified : ledger.verify sha256 = true)
    {last : LedgerEntry} (isLast : ledger.entries.getLast? = some last) :
    ledger.entries.length = last.seq.toNat + 1 := by
  rcases List.getLast?_eq_some_iff.mp isLast with ⟨front, split⟩
  have bound := ledger.length_lt
  simp only [verify_iff, split, chained_append, Chained, Nat.zero_add, and_true] at verified
  simp only [split, List.length_append, List.length_singleton] at bound ⊢
  rw [verified.2.seq, toNat_position (by omega)]

theorem length_utf8_entryHash (seq : UInt64) (prevHash : String) (record : IntrusionRecord) :
    (utf8 (entryHash sha256 seq prevHash record)).length = 64 := by
  simp [entryHash, Digest.length_eq]

theorem hash_eq_of_mem {ledger : LedgerIntrusionSink} (verified : ledger.verify sha256 = true)
    {entry : LedgerEntry} (mem : entry ∈ ledger.entries) :
    entry.hash = entryHash sha256 entry.seq entry.prevHash entry.record := by
  rcases ((verify_iff ledger).mp verified).fits_of_mem mem with ⟨_, _, -, -, fits⟩
  exact fits.hash

/-- A message is known by its hash. -/
theorem message_eq_of_hash {messages : List Bytes} (uncollided : Uncollided sha256 messages)
    {seq seq' : UInt64} {prevHash prevHash' : String} {record record' : IntrusionRecord}
    (listed : entryMessage seq prevHash record ∈ messages)
    (listed' : entryMessage seq' prevHash' record' ∈ messages)
    (same : entryHash sha256 seq prevHash record = entryHash sha256 seq' prevHash' record') :
    entryMessage seq prevHash record = entryMessage seq' prevHash' record' := by
  apply uncollided _ listed _ listed'
  have bytes := hex_injective same
  cases left : sha256 (entryMessage seq prevHash record)
  cases right : sha256 (entryMessage seq' prevHash' record')
  simp only [left, right] at bytes
  simp [bytes]

section Comparison

variable {left right : LedgerIntrusionSink}

/-- The entries agree in everything but the record, whose text is the same. -/
def SameEntry (entry other : LedgerEntry) : Prop :=
  (entry.seq = other.seq ∧ entry.prevHash = other.prevHash ∧ entry.hash = other.hash) ∧
    entry.record.SameText other.record

theorem message_eq_of_verified (uncollided : Uncollided sha256 (left.messages ++ right.messages))
    (leftVerified : left.verify sha256 = true) (rightVerified : right.verify sha256 = true)
    {entry other : LedgerEntry} (mem : entry ∈ left.entries) (otherMem : other ∈ right.entries)
    (same : entry.hash = other.hash) : entry.message = other.message := by
  rw [hash_eq_of_mem leftVerified mem, hash_eq_of_mem rightVerified otherMem] at same
  apply message_eq_of_hash uncollided _ _ same
  · exact List.mem_append_left _ (List.mem_map_of_mem mem)
  · exact List.mem_append_right _ (List.mem_map_of_mem otherMem)

theorem seq_eq_of_message {entry other : LedgerEntry} (same : entry.message = other.message) :
    entry.seq = other.seq := by
  simp only [LedgerEntry.message, entryMessage_eq] at same
  exact (bigEndian_eq_iff _ _).mp (List.append_inj same (by simp)).1

/-- Ledgers with the same last hash agree everywhere, up to records of the same text. -/
theorem forall₂_sameEntry (uncollided : Uncollided sha256 (left.messages ++ right.messages))
    (leftVerified : left.verify sha256 = true) (rightVerified : right.verify sha256 = true)
    {last last' : LedgerEntry} (isLast : left.entries.getLast? = some last)
    (isLast' : right.entries.getLast? = some last') (sameHash : last.hash = last'.hash) :
    List.Forall₂ SameEntry left.entries right.entries := by
  have sameMessage : ∀ entry ∈ left.entries, ∀ other ∈ right.entries,
      entry.hash = other.hash → entry.message = other.message := by
    intro entry mem other otherMem
    exact message_eq_of_verified uncollided leftVerified rightVerified mem otherMem
  -- The last entries have the same number, so the ledgers have the same length.
  have length : left.entries.length = right.entries.length := by
    rw [length_eq_of_last leftVerified isLast, length_eq_of_last rightVerified isLast']
    rw [seq_eq_of_message (sameMessage last (List.mem_of_getLast? isLast) last'
      (List.mem_of_getLast? isLast') sameHash)]
  have sameHead : headHash LedgerEntry.hash genesis left.entries =
      headHash LedgerEntry.hash genesis right.entries := by
    simp [headHash_eq_getLast?, isLast, isLast', sameHash]
  apply Chained.forall₂_of_headHash (fun hash => (utf8 hash).length = 64) _ _ _
    ((verify_iff left).mp leftVerified) ((verify_iff right).mp rightVerified) length sameHead
  · decide
  · intro position before entry fits
    rw [fits.hash, length_utf8_entryHash]
  · intro position before before' entry mem other otherMem proper proper' fits fits' same
    have message := sameMessage entry mem other otherMem same
    have sameSeq := seq_eq_of_message message
    simp only [LedgerEntry.message, sameSeq, fits.prevHash, fits'.prevHash] at message
    rcases (entryMessage_inj (proper.trans proper'.symm)).mp message with ⟨samePrev, sameText⟩
    refine ⟨samePrev, ⟨sameSeq, ?_, same⟩, sameText⟩
    rw [fits.prevHash, fits'.prevHash, samePrev]

theorem entries_eq_iff (related : List.Forall₂ SameEntry left.entries right.entries) :
    left.entries = right.entries ↔
      ∀ (position : ℕ) (entry other : LedgerEntry), left.entries[position]? = some entry →
        right.entries[position]? = some other → entry.record.SameText other.record →
          entry.record = other.record := by
  constructor
  · intro same position entry other found found' _
    rw [same, found', Option.some.injEq] at found
    rw [found]
  · intro distinct
    apply List.ext_getElem related.length_eq
    intro position inside inside'
    rcases (List.forall₂_iff_get.mp related).2 position inside inside' with
      ⟨⟨sameSeq, samePrev, sameHash⟩, sameText⟩
    have sameRecord := distinct position _ _ (List.getElem?_eq_getElem inside)
      (List.getElem?_eq_getElem inside') sameText
    exact LedgerEntry.ext sameSeq sameRecord samePrev sameHash

end Comparison

/-- A replaced record is noticed exactly when its text differs. -/
theorem replaceRecord_verify {ledger : LedgerIntrusionSink} {position : ℕ} {entry : LedgerEntry}
    {record : IntrusionRecord} (verified : ledger.verify sha256 = true)
    (found : ledger.entries[position]? = some entry)
    (uncollided : Uncollided sha256
      (ledger.messages ++ (ledger.replaceRecord position record).messages)) :
    (ledger.replaceRecord position record).verify sha256 = true ↔ entry.record.SameText record := by
  rcases List.getElem?_eq_some_iff.mp found with ⟨inside, isEntry⟩
  let replaced : LedgerEntry := { entry with record := record }
  have split : ledger.entries =
      ledger.entries.take position ++ entry :: ledger.entries.drop (position + 1) := by
    rw [← isEntry]
    simp
  have split' : (ledger.replaceRecord position record).entries =
      ledger.entries.take position ++ replaced :: ledger.entries.drop (position + 1) := by
    simp [replaceRecord, List.modify_eq_take_cons_drop inside, isEntry, replaced]
  have chained := (verify_iff ledger).mp verified
  rw [split] at chained
  have here := ((chained_append _ _ _ _).mp chained).2.1
  have sameHash : replaced.hash = entry.hash := rfl
  rw [verify_iff, split', chained.replace sameHash]
  constructor
  · intro fits
    have message : entry.message = replaced.message := by
      apply message_eq_of_hash uncollided _ _ (here.hash.symm.trans fits.hash)
      · apply List.mem_append_left
        rw [messages, split]
        simp [LedgerEntry.message]
      · apply List.mem_append_right
        rw [messages, split']
        simp [LedgerEntry.message]
    exact ((entryMessage_inj rfl).mp message).2
  · intro sameText
    have message : entry.message = replaced.message := (entryMessage_inj rfl).mpr ⟨rfl, sameText⟩
    refine ⟨here.seq, here.prevHash, ?_⟩
    have hashed := here.hash
    simp only [LedgerEntry.message] at message
    rw [entryHash, message] at hashed
    exact hashed

end LedgerIntrusionSink

open LedgerIntrusionSink

/-! ## What the last hash commits to -/

/--
Every ledger built by appending passes its check. Two ledgers which pass it and
end in the same hash are equal exactly when no position holds two different
records of the same text, and another record in place of one is noticed exactly
when their texts differ.
-/
theorem ledger_head_commits_iff (sha256 : Bytes → Digest) :
    (∀ records ledger, appendAll sha256 records .new = .ok ledger →
      ledger.verify sha256 = true) ∧
    (∀ (left right : LedgerIntrusionSink) (last last' : LedgerEntry),
      Uncollided sha256 (left.messages ++ right.messages) →
      left.verify sha256 = true → right.verify sha256 = true →
      left.entries.getLast? = some last → right.entries.getLast? = some last' →
      last.hash = last'.hash →
      (left.entries = right.entries ↔
        ∀ (position : ℕ) (entry other : LedgerEntry), left.entries[position]? = some entry →
          right.entries[position]? = some other → entry.record.SameText other.record →
            entry.record = other.record)) ∧
    ∀ (records : List IntrusionRecord) (ledger : LedgerIntrusionSink) (position : ℕ)
      (entry : LedgerEntry) (record : IntrusionRecord),
      appendAll sha256 records .new = .ok ledger → ledger.entries[position]? = some entry →
      record ≠ entry.record →
      Uncollided sha256 (ledger.messages ++ (ledger.replaceRecord position record).messages) →
      ((ledger.replaceRecord position record).verify sha256 = false ↔
        ¬entry.record.SameText record) := by
  refine ⟨?_, ?_, ?_⟩
  · intro records ledger built
    exact appendAll_verifies built rfl
  · intro left right last last' uncollided leftVerified rightVerified isLast isLast' sameHash
    apply entries_eq_iff
    exact forall₂_sameEntry uncollided leftVerified rightVerified isLast isLast' sameHash
  · intro records ledger position entry record built found _ uncollided
    rw [← Bool.not_eq_true]
    apply not_congr
    exact replaceRecord_verify (appendAll_verifies built rfl) found uncollided

def footprint (ja3 : Option String) (reason : String) : IntrusionRecord :=
  ⟨"203.0.113.9", ja3, "bad_cert", reason, 42⟩

/-- SHA-256 on the messages of the ledgers below. -/
def footprintDigest (message : Bytes) : Digest :=
  if message = entryMessage 0 genesis (footprint none "no client cert") then
    ⟨[185, 251, 166, 106, 18, 120, 193, 116, 127, 91, 115, 243, 53, 244, 190, 40, 149, 196, 51, 93,
      231, 184, 1, 147, 162, 47, 14, 136, 98, 173, 218, 32], rfl⟩
  else if message = entryMessage 0 genesis (footprint none "edited") then
    ⟨[59, 223, 65, 125, 46, 213, 255, 209, 132, 93, 253, 178, 202, 143, 95, 133, 44, 254, 234, 173,
      198, 204, 146, 133, 189, 161, 33, 89, 117, 167, 204, 53], rfl⟩
  else
    ⟨[131, 201, 98, 45, 106, 41, 153, 159, 64, 89, 97, 54, 228, 220, 97, 36, 137, 206, 190, 236, 38,
      239, 122, 69, 221, 75, 122, 25, 206, 138, 65, 105], rfl⟩

def firstEntry (ja3 : Option String) : LedgerEntry :=
  ⟨0, footprint ja3 "no client cert", genesis,
    "b9fba66a1278c1747f5b73f335f4be2895c4335de7b80193a22f0e8862adda20"⟩

def secondEntry : LedgerEntry :=
  ⟨1, footprint none "no client cert", (firstEntry none).hash,
    "83c9622d6a29999f40596136e4dc612489cebeec26ef7a45dd4b7a19ce8a4169"⟩

def shortLedger (ja3 : Option String) : LedgerIntrusionSink :=
  ⟨[firstEntry ja3], by simp⟩

def longLedger : LedgerIntrusionSink :=
  ⟨[firstEntry none, secondEntry], by simp⟩

/-- An edited reason is noticed. -/
theorem ledger_head_commits_iff_edited :
    appendAll footprintDigest [footprint none "no client cert"] .new = .ok (shortLedger none) ∧
    ((shortLedger none).replaceRecord 0 (footprint none "edited")).verify footprintDigest =
      false := by
  have built : appendAll footprintDigest [footprint none "no client cert"] .new =
      .ok (shortLedger none) := by
    rfl
  refine ⟨built, ?_⟩
  apply ((ledger_head_commits_iff footprintDigest).2.2 _ _ 0 (firstEntry none) _ built rfl
    (by decide) _).mpr
  · decide
  · intro message mem other otherMem same
    change message ∈ [entryMessage 0 genesis (footprint none "no client cert"),
      entryMessage 0 genesis (footprint none "edited")] at mem
    change other ∈ [entryMessage 0 genesis (footprint none "no client cert"),
      entryMessage 0 genesis (footprint none "edited")] at otherMem
    simp only [List.mem_cons, List.not_mem_nil, or_false] at mem otherMem
    rcases mem with rfl | rfl <;> rcases otherMem with rfl | rfl
    · rfl
    · exact absurd same (by decide)
    · exact absurd same (by decide)
    · rfl

/-- A fingerprint which is missing and one which is empty are not told apart. -/
theorem ledger_head_forgets_fingerprint :
    appendAll footprintDigest [footprint none "no client cert"] .new = .ok (shortLedger none) ∧
    (shortLedger none).replaceRecord 0 (footprint (some "") "no client cert") =
      shortLedger (some "") ∧
    (shortLedger none).messages = (shortLedger (some "")).messages ∧
    (shortLedger none).verify footprintDigest = true ∧
    (shortLedger (some "")).verify footprintDigest = true ∧
    (firstEntry none).hash = (firstEntry (some "")).hash ∧
    (shortLedger none).entries ≠ (shortLedger (some "")).entries := by
  refine ⟨rfl, rfl, rfl, rfl, rfl, rfl, ?_⟩
  decide

/-! ## What removing entries leaves -/

/-- What is kept of a ledger passes the check exactly when only its last entries are gone. -/
theorem removal_is_noticed_iff (sha256 : Bytes → Digest) {records : List IntrusionRecord}
    {ledger kept : LedgerIntrusionSink} (built : appendAll sha256 records .new = .ok ledger)
    (sublist : List.Sublist kept.entries ledger.entries) :
    kept.verify sha256 = false ↔ ¬kept.entries <+: ledger.entries := by
  have chained := (verify_iff ledger).mp (appendAll_verifies built rfl)
  have bound := ledger.length_lt
  rw [← Bool.not_eq_true, verify_iff]
  apply not_congr
  constructor
  · intro keptChained
    apply Chained.prefix_of_sublist (2 ^ 63) _ sublist (by omega) chained keptChained
    intro earlier later prev prev' entry before inside fits fits'
    have numbers := congrArg UInt64.toNat (fits.seq.symm.trans fits'.seq)
    rw [toNat_position (by omega), toNat_position inside] at numbers
    omega
  · intro isPrefix
    exact chained.of_prefix isPrefix

/-- Removing the first of two entries is noticed. -/
theorem removal_is_noticed_iff_first :
    (⟨[secondEntry], by simp⟩ : LedgerIntrusionSink).verify footprintDigest = false := by
  have built : appendAll footprintDigest
      [footprint none "no client cert", footprint none "no client cert"] .new =
        .ok longLedger := by
    rfl
  apply (removal_is_noticed_iff footprintDigest built (List.sublist_cons_self _ _)).mpr
  decide

/-- Removing the last of two entries is not noticed, nor is removing both. -/
theorem removal_from_end_unnoticed :
    appendAll footprintDigest
      [footprint none "no client cert", footprint none "no client cert"] .new = .ok longLedger ∧
    longLedger.entries = (shortLedger none).entries ++ [secondEntry] ∧
    (shortLedger none).verify footprintDigest = true ∧
    LedgerIntrusionSink.new.verify footprintDigest = true := by
  exact ⟨rfl, rfl, rfl, rfl⟩

end VaultMesh
