import VaultMesh.Coding.Lines
import VaultMesh.Coding.Texts
import VaultMesh.PeerRequests

/-!
# The QUIC shard protocol

`QuicShardTransport` sends one frame a stream to a peer, whose server hands it to
`serve` and answers with one frame. Both ends give up on a stream longer than
`MAX_FRAME`, and there are no other failures of the network here.

The length of the key is cut to 16 bits. The frame of a longer key is read with
a shorter key, of which everything from the last slash on is missing, so that it
is no key at all. Every other frame is read as it was written.
-/

namespace VaultMesh

open Coding Files

namespace Wire

/-- The most bytes read from a stream. -/
def maxFrame : ℕ := 16 * 1024 * 1024

/-- The key `namespace/blob/index`. -/
def shardKey (ref : ShardRef) : String :=
  ref.ns.value ++ "/" ++ ref.blobId.value ++ "/" ++ toString ref.index.toNat

/-- `[op:1][keylen:u16-be][key][payload]`, the length cut to 16 bits. -/
def encodeRequest (op : UInt8) (key : String) (payload : Bytes) : Bytes :=
  op :: (bigEndian 2 (utf8 key).length ++ utf8 key ++ payload)

end Wire

/-- The server's side of a stream. -/
def handleStream {A : Type} (anchors : AnchorModel A) (anchor : A) (stream : Bytes) : Bytes × A :=
  if stream.length ≤ Wire.maxFrame then
    serve anchors anchor stream
  else
    (Wire.encodeResponse Wire.stErr [], anchor)

namespace QuicShardTransport

section Calls

variable {A : Type} (anchors : AnchorModel A) (peer : String)

def roundTrip (anchor : A) (request : Bytes) : PortResult Bytes × A :=
  let (response, after) := handleStream anchors anchor request
  if response.length ≤ Wire.maxFrame then
    (.ok response, after)
  else
    (.error (.unavailable "quic: stream too long"), after)

def sendShard (anchor : A) (ref : ShardRef) (bytes : Bytes) : PortResult Unit × A :=
  match roundTrip anchors anchor (Wire.encodeRequest Wire.opPut (Wire.shardKey ref) bytes) with
  | (.error error, after) => (.error error, after)
  | (.ok response, after) =>
      if response.head? = some Wire.stOk then
        (.ok (), after)
      else
        (.error (.backend ("peer " ++ peer ++ " rejected put")), after)

def fetchShard (anchor : A) (ref : ShardRef) : PortResult Bytes × A :=
  match roundTrip anchors anchor (Wire.encodeRequest Wire.opGet (Wire.shardKey ref) []) with
  | (.error error, after) => (.error error, after)
  | (.ok response, after) =>
      if response.head? = some Wire.stOk then
        (.ok (response.drop 1), after)
      else if response.head? = some Wire.stNotFound then
        (.error .notFound, after)
      else
        (.error (.backend ("peer " ++ peer ++ " error")), after)

end Calls

end QuicShardTransport

/-! ## Keys -/

namespace Wire

/-- The ids of the address have no slash in them. -/
structure SlashFree (ref : ShardRef) : Prop where
  ns : '/' ∉ ref.ns.value.toList
  blobId : '/' ∉ ref.blobId.value.toList

theorem toList_shardKey (ref : ShardRef) :
    (shardKey ref).toList = ref.ns.value.toList ++ '/' :: (ref.blobId.value.toList ++
      '/' :: Nat.toDigits 10 ref.index.toNat) := by
  have slash : "/".toList = ['/'] := rfl
  simp [shardKey, slash]

theorem slashFree_toDigits (value : ℕ) : '/' ∉ Nat.toDigits 10 value := by
  intro digit
  have isDigit := Nat.isDigit_of_mem_toDigits (by decide) (by decide) digit
  simp at isDigit

theorem parseU16_toString (index : UInt16) : parseU16 (toString index.toNat) = some index := by
  have bound := index.toNat_lt
  have digits : ∀ digit ∈ Nat.toDigits 10 index.toNat, digit.isDigit = true :=
    fun digit => Nat.isDigit_of_mem_toDigits (by decide) (by decide)
  have unsigned : ∀ rest, Nat.toDigits 10 index.toNat ≠ '+' :: rest := by
    intro rest signed
    have isDigit := digits '+' (by simp [signed])
    simp at isDigit
  have text : (toString index.toNat).toList = Nat.toDigits 10 index.toNat := by
    simp
  unfold parseU16
  rw [text]
  split
  · next rest signed => exact absurd signed (unsigned rest)
  · have allDigits : (Nat.toDigits 10 index.toNat).all Char.isDigit = true :=
      List.all_eq_true.mpr digits
    simp [allDigits, Nat.toDigits_ne_nil, Nat.ofDigitChars_ten_toDigits, bound]

theorem parseKey_shardKey {ref : ShardRef} (slashFree : SlashFree ref) :
    parseKey (shardKey ref) = some ref := by
  have index : '/' ∉ (toString ref.index.toNat).toList := by
    simpa using slashFree_toDigits ref.index.toNat
  have parts : Path.split (shardKey ref) =
      [ref.ns.value, ref.blobId.value, toString ref.index.toNat] := by
    rw [shardKey, Path.split_append_slash, Path.split_append_slash,
      Path.split_of_slashFree slashFree.ns, Path.split_of_slashFree slashFree.blobId,
      Path.split_of_slashFree index]
    rfl
  simp only [parseKey, parts, parseU16_toString, Option.map_some]

/-- A key has two slashes in it. -/
theorem toList_of_parseKey {key : String} {ref : ShardRef} (parsed : parseKey key = some ref) :
    ∃ ns blob index : List Char, key.toList = ns ++ '/' :: (blob ++ '/' :: index) := by
  unfold parseKey at parsed
  split at parsed
  · next ns blob index parts =>
      refine ⟨ns.toList, blob.toList, index.toList, ?_⟩
      have joined : ['/'].intercalate (key.toList.splitOn '/') = key.toList :=
        List.intercalate_splitOn '/'
      have lists : key.toList.splitOn '/' = [ns.toList, blob.toList, index.toList] := by
        simpa [Path.split] using congrArg (List.map String.toList) parts
      rw [lists] at joined
      simpa [List.intercalate] using joined.symm
  · cases parsed

/-! ## Frames -/

theorem length_encodeRequest (op : UInt8) (key : String) (payload : Bytes) :
    (encodeRequest op key payload).length = 3 + (utf8 key).length + payload.length := by
  simp only [encodeRequest, List.length_cons, List.length_append, length_bigEndian]
  omega

/-- What is read of a frame: as many bytes of the key as 16 bits of its length say. -/
theorem parseRequest_encodeRequest (op : UInt8) (key : String) (payload : Bytes) :
    parseRequest (encodeRequest op key payload) =
      (String.fromUTF8? ⟨((utf8 key).take ((utf8 key).length % 65536)).toArray⟩).map fun read =>
        (op, read, (utf8 key ++ payload).drop ((utf8 key).length % 65536)) := by
  have bytes : bigEndian 2 (utf8 key).length =
      [UInt8.ofNat ((utf8 key).length / 256), UInt8.ofNat (utf8 key).length] := by
    simp [bigEndian]
  have klen : (UInt8.ofNat ((utf8 key).length / 256)).toNat * 256 +
      (UInt8.ofNat (utf8 key).length).toNat = (utf8 key).length % 65536 := by
    simp only [UInt8.toNat_ofNat']
    omega
  have shorter : (utf8 key).length % 65536 ≤ (utf8 key).length := Nat.mod_le _ _
  have enough : ¬(utf8 key ++ payload).length < (utf8 key).length % 65536 := by
    simp only [List.length_append]
    omega
  simp only [encodeRequest, bytes, List.cons_append, List.nil_append, parseRequest, klen,
    if_neg enough, List.take_append_of_le_length shorter]

theorem parseRequest_of_short {key : String} (short : (utf8 key).length < 65536) (op : UInt8)
    (payload : Bytes) :
    parseRequest (encodeRequest op key payload) = some (op, key, payload) := by
  have whole : String.fromUTF8? ⟨(utf8 key).toArray⟩ = some key := fromUTF8?_eq_some_iff.mpr rfl
  simp [parseRequest_encodeRequest, Nat.mod_eq_of_lt short, whole]

theorem length_utf8_toDigits (index : UInt16) {chars rest : List Char}
    (split : Nat.toDigits 10 index.toNat = chars ++ rest) :
    (utf8 (String.ofList rest)).length ≤ 5 := by
  have few : (Nat.toDigits 10 index.toNat).length ≤ 5 := by
    apply (Nat.length_toDigits_le_iff (by decide) (by decide)).mpr
    have bound := index.toNat_lt
    omega
  have ascii : ∀ digit ∈ rest, (String.utf8EncodeChar digit).length = 1 := by
    intro digit mem
    have isDigit := Nat.isDigit_of_mem_toDigits (b := 10) (n := index.toNat) (c := digit)
      (by decide) (by decide) (by simp [split, mem])
    simp only [Char.isDigit, Bool.and_eq_true, decide_eq_true_eq] at isDigit
    simp only [String.length_utf8EncodeChar, Char.utf8Size_eq_one_iff]
    exact UInt32.le_trans isDigit.2 (by decide)
  have bytes : (utf8 (String.ofList rest)).length = rest.length := by
    rw [utf8_eq_flatMap, String.toList_ofList, List.length_flatMap,
      List.map_congr_left ascii]
    simp
  have parts := congrArg List.length split
  simp only [List.length_append] at parts
  omega

/-- Cutting more than the index off a key leaves no key. -/
theorem parseKey_of_cut {ref : ShardRef} (slashFree : SlashFree ref) {key : String} {back : Bytes}
    (cut : utf8 key ++ back = utf8 (shardKey ref)) (missing : 5 < back.length) :
    parseKey key = none := by
  by_contra accepted
  rcases Option.ne_none_iff_exists'.mp accepted with ⟨other, parsed⟩
  rcases toList_of_parseKey parsed with ⟨ns, blob, index, parts⟩
  rcases exists_append_of_utf8 cut with ⟨rest, whole, bytes⟩
  rw [toList_shardKey, parts] at whole
  simp only [List.append_assoc, List.cons_append] at whole
  have slashes := congrArg (List.count '/') whole
  simp only [List.count_append, List.count_cons_self, List.count_eq_zero.mpr slashFree.ns,
    List.count_eq_zero.mpr slashFree.blobId,
    List.count_eq_zero.mpr (slashFree_toDigits ref.index.toNat)] at slashes
  -- Both slashes are those of the whole key, so the rest is a part of its index.
  have nsFree : '/' ∉ ns := List.count_eq_zero.mp (by omega)
  have blobFree : '/' ∉ blob := List.count_eq_zero.mp (by omega)
  rcases append_separator_inj slashFree.ns nsFree whole with ⟨-, whole⟩
  rcases append_separator_inj slashFree.blobId blobFree whole with ⟨-, digits⟩
  have few := length_utf8_toDigits ref.index digits
  rw [bytes] at few
  omega

/-- A frame whose key is too long for 16 bits is read as one without a key. -/
theorem parseKey_of_long {ref : ShardRef} (slashFree : SlashFree ref)
    (long : 65536 ≤ (utf8 (shardKey ref)).length) {op read : UInt8} {payload rest : Bytes}
    {key : String}
    (parsed : parseRequest (encodeRequest op (shardKey ref) payload) = some (read, key, rest)) :
    parseKey key = none := by
  rw [parseRequest_encodeRequest] at parsed
  rcases Option.map_eq_some_iff.mp parsed with ⟨text, decoded, frame⟩
  simp only [Prod.mk.injEq] at frame
  rcases frame with ⟨-, rfl, -⟩
  apply parseKey_of_cut slashFree
  · rw [fromUTF8?_eq_some_iff.mp decoded, List.take_append_drop]
  · simp only [List.length_drop]
    omega

end Wire

/-! ## Calls -/

namespace QuicShardTransport

open Wire

section SingleCalls

variable {ref : ShardRef}

/-- The frame of a put of these bytes is read as it was written. -/
def Fits (ref : ShardRef) (bytes : Bytes) : Prop :=
  (utf8 (shardKey ref)).length < 65536 ∧
    3 + (utf8 (shardKey ref)).length + bytes.length ≤ maxFrame

theorem handleStream_put (slashFree : SlashFree ref) {bytes : Bytes} (fits : Fits ref bytes)
    (anchor : ShardMap) :
    handleStream shardMap anchor (encodeRequest opPut (shardKey ref) bytes) =
      (encodeResponse stOk [], Function.update anchor ref (some bytes)) := by
  have short : (encodeRequest opPut (shardKey ref) bytes).length ≤ maxFrame := by
    rw [length_encodeRequest]
    exact fits.2
  have notGet : opPut ≠ opGet := by decide
  simp only [handleStream, short, if_true, serve, parseRequest_of_short fits.1,
    parseKey_shardKey slashFree, notGet, if_false]
  rfl

theorem handleStream_get (slashFree : SlashFree ref) (fits : Fits ref []) (anchor : ShardMap) :
    handleStream shardMap anchor (encodeRequest opGet (shardKey ref) []) =
      ((anchor ref).elim (encodeResponse stNotFound []) (encodeResponse stOk), anchor) := by
  have short : (encodeRequest opGet (shardKey ref) []).length ≤ maxFrame := by
    rw [length_encodeRequest]
    exact fits.2
  simp only [handleStream, short, if_true, serve, parseRequest_of_short fits.1,
    parseKey_shardKey slashFree, shardMap, ShardMap.read]
  cases anchor ref <;> rfl

theorem handleStream_of_not_fits {A : Type} (anchors : AnchorModel A) (slashFree : SlashFree ref)
    {bytes : Bytes} (unfit : ¬Fits ref bytes) (anchor : A) (op : UInt8) :
    handleStream anchors anchor (encodeRequest op (shardKey ref) bytes) =
      (encodeResponse stErr [], anchor) := by
  unfold handleStream
  split
  · next short =>
      rw [length_encodeRequest] at short
      have long : 65536 ≤ (utf8 (shardKey ref)).length := by
        by_contra fitting
        exact unfit ⟨by omega, short⟩
      unfold serve
      split
      · rfl
      · next parsed => rw [parseKey_of_long slashFree long parsed]
  · rfl

/-- A put whose frame is read as it was written stores the bytes. -/
theorem sendShard_of_fits (peer : String) (slashFree : SlashFree ref) {bytes : Bytes}
    (fits : Fits ref bytes) (anchor : ShardMap) :
    sendShard shardMap peer anchor ref bytes =
      (.ok (), Function.update anchor ref (some bytes)) := by
  simp [sendShard, roundTrip, handleStream_put slashFree fits, encodeResponse, maxFrame]

/-- All other puts are refused. -/
theorem sendShard_of_not_fits (peer : String) (slashFree : SlashFree ref) {bytes : Bytes}
    (unfit : ¬Fits ref bytes) (anchor : ShardMap) :
    sendShard shardMap peer anchor ref bytes =
      (.error (.backend ("peer " ++ peer ++ " rejected put")), anchor) := by
  have refused : stErr ≠ stOk := by decide
  simp [sendShard, roundTrip, handleStream_of_not_fits shardMap slashFree unfit, refused,
    encodeResponse, maxFrame]

/-- A fetch returns what is stored, if request and answer fit. -/
theorem fetchShard_of_fits (peer : String) (slashFree : SlashFree ref) (fits : Fits ref [])
    (anchor : ShardMap) :
    fetchShard shardMap peer anchor ref =
      ((anchor ref).elim (.error .notFound) fun bytes =>
        if 1 + bytes.length ≤ maxFrame then .ok bytes
        else .error (.unavailable "quic: stream too long"), anchor) := by
  have missing : stNotFound ≠ stOk := by decide
  cases stored : anchor ref with
  | none =>
      simp [fetchShard, roundTrip, handleStream_get slashFree fits, stored, encodeResponse,
        maxFrame, missing]
  | some bytes =>
      by_cases fitting : 1 + bytes.length ≤ maxFrame <;>
        simp [fetchShard, roundTrip, handleStream_get slashFree fits, stored, encodeResponse,
          Nat.add_comm bytes.length 1, fitting]

theorem fetchShard_of_not_fits (peer : String) (slashFree : SlashFree ref)
    (unfit : ¬Fits ref []) (anchor : ShardMap) :
    fetchShard shardMap peer anchor ref =
      (.error (.backend ("peer " ++ peer ++ " error")), anchor) := by
  have refused : stErr ≠ stOk ∧ stErr ≠ stNotFound := by decide
  simp [fetchShard, roundTrip, handleStream_of_not_fits shardMap slashFree unfit, refused,
    encodeResponse, maxFrame]

end SingleCalls

/-! ## Runs -/

/-- One call of the transport. -/
inductive QuicCall where
  | send (ref : ShardRef) (bytes : Bytes)
  | fetch (ref : ShardRef)

namespace QuicCall

def ref : QuicCall → ShardRef
  | .send ref _ => ref
  | .fetch ref => ref

/-- The anchor after a call. -/
def after {A : Type} (anchors : AnchorModel A) (peer : String) (anchor : A) : QuicCall → A
  | .send ref bytes => (sendShard anchors peer anchor ref bytes).2
  | .fetch ref => (fetchShard anchors peer anchor ref).2

def afterAll {A : Type} (anchors : AnchorModel A) (peer : String) (anchor : A)
    (calls : List QuicCall) : A :=
  calls.foldl (after anchors peer) anchor

end QuicCall

open QuicCall

/-- No call of the run stores a payload at this address. -/
def Unwritten (peer : String) (first : ShardMap) (calls : List QuicCall) (ref : ShardRef) : Prop :=
  ∀ before bytes later, calls = before ++ .send ref bytes :: later →
    (sendShard shardMap peer (afterAll shardMap peer first before) ref bytes).1 ≠ .ok ()

theorem afterAll_of_unwritten {peer : String} {first : ShardMap} {calls : List QuicCall}
    {ref : ShardRef} (slashFree : ∀ call ∈ calls, SlashFree call.ref)
    (unwritten : Unwritten peer first calls ref) :
    afterAll shardMap peer first calls ref = first ref := by
  induction calls generalizing first with
  | nil => rfl
  | cons call calls ih =>
      have here : call.after shardMap peer first ref = first ref := by
        cases call with
        | fetch other =>
            have plain : SlashFree other := slashFree (.fetch other) List.mem_cons_self
            by_cases fits : Fits other []
            · simp [after, fetchShard_of_fits peer plain fits]
            · simp [after, fetchShard_of_not_fits peer plain fits]
        | send other bytes =>
            have plain : SlashFree other := slashFree (.send other bytes) List.mem_cons_self
            by_cases fits : Fits other bytes
            · simp only [after, sendShard_of_fits peer plain fits]
              apply Function.update_of_ne
              rintro rfl
              apply unwritten [] bytes calls rfl
              simp [sendShard_of_fits peer plain fits]
            · simp [after, sendShard_of_not_fits peer plain fits]
      rw [afterAll, List.foldl_cons, ← here]
      apply ih
      · intro other mem
        exact slashFree other (List.mem_cons_of_mem _ mem)
      · intro before bytes later split
        apply unwritten (call :: before) bytes later
        simp [split]

/--
The protocol refines a map: a put which succeeds stores its payload under its
address and nothing else, a put which fails stores nothing, a fetch returns what
the last successful put to its address stored, and nothing where none succeeded.
-/
theorem refines_shard_map (peer : String) (first : ShardMap) (calls : List QuicCall)
    (slashFree : ∀ call ∈ calls, SlashFree call.ref) :
    (∀ before ref bytes later, calls = before ++ .send ref bytes :: later →
      sendShard shardMap peer (afterAll shardMap peer first before) ref bytes =
          (.ok (), Function.update (afterAll shardMap peer first before) ref (some bytes)) ∨
        ∃ error, sendShard shardMap peer (afterAll shardMap peer first before) ref bytes =
          (.error error, afterAll shardMap peer first before)) ∧
    (∀ before ref bytes middle later,
      calls = before ++ .send ref bytes :: (middle ++ .fetch ref :: later) →
      (sendShard shardMap peer (afterAll shardMap peer first before) ref bytes).1 = .ok () →
      Unwritten peer (afterAll shardMap peer first (before ++ [.send ref bytes])) middle ref →
      fetchShard shardMap peer
          (afterAll shardMap peer first (before ++ .send ref bytes :: middle)) ref =
        (.ok bytes, afterAll shardMap peer first (before ++ .send ref bytes :: middle))) ∧
    ∀ before ref later, calls = before ++ .fetch ref :: later → first ref = none →
      Unwritten peer first before ref →
      ∃ error, fetchShard shardMap peer (afterAll shardMap peer first before) ref =
        (.error error, afterAll shardMap peer first before) := by
  refine ⟨?_, ?_, ?_⟩
  · intro before ref bytes later split
    have plain : SlashFree ref := slashFree (.send ref bytes) (by simp [split])
    by_cases fits : Fits ref bytes
    · exact Or.inl (sendShard_of_fits peer plain fits _)
    · exact Or.inr ⟨_, sendShard_of_not_fits peer plain fits _⟩
  · intro before ref bytes middle later split stored unwritten
    have plain : SlashFree ref := slashFree (.send ref bytes) (by simp [split])
    have fits : Fits ref bytes := by
      by_contra unfit
      rw [sendShard_of_not_fits peer plain unfit] at stored
      cases stored
    have kept : afterAll shardMap peer first (before ++ .send ref bytes :: middle) ref =
        some bytes := by
      have sent : afterAll shardMap peer first (before ++ [.send ref bytes]) ref = some bytes := by
        simp [afterAll, after, sendShard_of_fits peer plain fits]
      rw [← sent, ← afterAll_of_unwritten _ unwritten]
      · simp [afterAll]
      · intro call mem
        apply slashFree
        simp [split, mem]
    rcases fits with ⟨shortKey, shortFrame⟩
    have request : Fits ref [] := ⟨shortKey, by simp only [List.length_nil]; omega⟩
    have answer : 1 + bytes.length ≤ maxFrame := by omega
    simp [fetchShard_of_fits peer plain request, kept, answer]
  · intro before ref later split absent unwritten
    have plain : SlashFree ref := slashFree (.fetch ref) (by simp [split])
    have kept := afterAll_of_unwritten (fun call mem => slashFree call (by simp [split, mem]))
      unwritten
    rw [absent] at kept
    by_cases fits : Fits ref []
    · exact ⟨.notFound, by simp [fetchShard_of_fits peer plain fits, kept]⟩
    · exact ⟨_, fetchShard_of_not_fits peer plain fits _⟩

def sampleRef : ShardRef := ⟨⟨"ns1"⟩, ⟨"b1"⟩, 2⟩

theorem refines_shard_map_loopback :
    fetchShard shardMap "127.0.0.1:8791"
        (afterAll shardMap "127.0.0.1:8791" (fun _ => none) [.send sampleRef [7, 9]]) sampleRef =
      (.ok [7, 9],
        afterAll shardMap "127.0.0.1:8791" (fun _ => none) [.send sampleRef [7, 9]]) := by
  have slashFree : ∀ call ∈ [QuicCall.send sampleRef [7, 9], .fetch sampleRef],
      SlashFree call.ref := by
    intro call mem
    simp only [List.mem_cons, List.not_mem_nil, or_false] at mem
    rcases mem with rfl | rfl <;> exact ⟨by decide, by decide⟩
  apply (refines_shard_map "127.0.0.1:8791" (fun _ => none) _ slashFree).2.1 [] _ _ [] [] rfl
  · decide
  · intro before bytes later split
    simp at split

end QuicShardTransport

end VaultMesh
