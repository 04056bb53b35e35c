import VaultMesh.Files.FileSystem
import VaultMesh.World

/-!
# Requests of peers

A peer stores and fetches shard replicas, over HTTP (`peer_put_shard`,
`peer_get_shard`) or in QUIC frames (`serve`). Namespace, blob and index are what
the peer sends. The replicas go to the anchor on which the node keeps its own
shards, under the same keys. A body over the extractor's limit (2 MiB) and a frame
over `MAX_FRAME` are refused before any handler, so such requests do not occur here.
-/

namespace VaultMesh

open Files

/-! ## Frames -/

namespace Wire

def opGet : UInt8 := 0
def opPut : UInt8 := 1

def stOk : UInt8 := 0
def stNotFound : UInt8 := 1
def stErr : UInt8 := 2

/-- `str::parse::<u16>`: decimal digits, perhaps after a `+`. -/
def parseU16 (text : String) : Option UInt16 :=
  let digits :=
    match text.toList with
    | '+' :: rest => rest
    | all => all
  if digits = [] ∨ digits.all Char.isDigit = false then none
  else
    let value := Nat.ofDigitChars 10 digits 0
    if value < 65536 then some (UInt16.ofNat value) else none

def parseKey (key : String) : Option ShardRef :=
  match Path.split key with
  | [ns, blob, index] => (parseU16 index).map fun index => ⟨⟨ns⟩, ⟨blob⟩, index⟩
  | _ => none

def parseRequest : Bytes → Option (UInt8 × String × Bytes)
  | op :: high :: low :: rest =>
      let klen := high.toNat * 256 + low.toNat
      if rest.length < klen then none
      else (String.fromUTF8? ⟨(rest.take klen).toArray⟩).map fun key => (op, key, rest.drop klen)
  | _ => none

def encodeResponse (status : UInt8) (payload : Bytes) : Bytes :=
  status :: payload

end Wire

/-! ## Handlers -/

section Handlers

variable {A : Type} (anchors : AnchorModel A)

def shardRef (ns blob : String) (index : UInt16) : ShardRef :=
  ⟨⟨ns⟩, ⟨blob⟩, index⟩

def peerPutShard (anchor : A) (ns blob : String) (index : UInt16) (body : Bytes) :
    PortResult Unit × A :=
  anchors.putShard anchor (shardRef ns blob index) body

def peerGetShard (anchor : A) (ns blob : String) (index : UInt16) : PortResult Bytes :=
  anchors.getShard anchor (shardRef ns blob index)

def serve (anchor : A) (buf : Bytes) : Bytes × A :=
  match Wire.parseRequest buf with
  | none => (Wire.encodeResponse Wire.stErr [], anchor)
  | some (op, key, payload) =>
      match Wire.parseKey key with
      | none => (Wire.encodeResponse Wire.stErr [], anchor)
      | some ref =>
          if op = Wire.opGet then
            match anchors.getShard anchor ref with
            | .ok bytes => (Wire.encodeResponse Wire.stOk bytes, anchor)
            | .error .notFound => (Wire.encodeResponse Wire.stNotFound [], anchor)
            | .error _ => (Wire.encodeResponse Wire.stErr [], anchor)
          else if op = Wire.opPut then
            match anchors.putShard anchor ref payload with
            | (.ok (), stored) => (Wire.encodeResponse Wire.stOk [], stored)
            | (.error _, left) => (Wire.encodeResponse Wire.stErr [], left)
          else (Wire.encodeResponse Wire.stErr [], anchor)

/-- What reaches a handler: a body within the extractor's limit, or the bytes of a frame within
`MAX_FRAME`. -/
inductive PeerRequest where
  | put (ns blob : String) (index : UInt16) (body : Bytes)
  | get (ns blob : String) (index : UInt16)
  | frame (buf : Bytes)

inductive PeerResponse where
  | put (result : PortResult Unit)
  | get (result : PortResult Bytes)
  | frame (bytes : Bytes)

namespace PeerRequest

def handle (anchor : A) : PeerRequest → PeerResponse × A
  | .put ns blob index body =>
      let stored := peerPutShard anchors anchor ns blob index body
      (.put stored.1, stored.2)
  | .get ns blob index => (.get (peerGetShard anchors anchor ns blob index), anchor)
  | .frame buf =>
      let served := serve anchors anchor buf
      (.frame served.1, served.2)

/-- The shard which a request asks the node to store. -/
def replica : PeerRequest → Option (ShardRef × Bytes)
  | .put ns blob index body => some (shardRef ns blob index, body)
  | .get _ _ _ => none
  | .frame buf => do
      let (op, key, payload) ← Wire.parseRequest buf
      let ref ← Wire.parseKey key
      if op = Wire.opPut then some (ref, payload) else none

/-- A request changes the anchor by the put of its replica only. -/
theorem handle_anchor (anchor : A) (request : PeerRequest) :
    (request.handle anchors anchor).2 =
      match request.replica with
      | some (ref, body) => (anchors.putShard anchor ref body).2
      | none => anchor := by
  cases request with
  | put ns blob index body => rfl
  | get ns blob index => rfl
  | frame buf =>
      simp only [handle, serve, replica]
      cases Wire.parseRequest buf with
      | none => rfl
      | some frame =>
          rcases frame with ⟨op, key, payload⟩
          cases parsed : Wire.parseKey key with
          | none => simp [parsed]
          | some ref =>
              by_cases isGet : op = Wire.opGet
              · subst isGet
                have noPut : ¬Wire.opGet = Wire.opPut := by decide
                simp only [parsed, Option.bind_eq_bind, Option.bind_some, if_true, if_neg noPut]
                split <;> rfl
              · by_cases isPut : op = Wire.opPut
                · simp only [parsed, Option.bind_eq_bind, Option.bind_some, if_neg isGet,
                    if_pos isPut]
                  split
                  · next stored => rw [stored]
                  · next left => rw [left]
                · simp [parsed, isGet, isPut]

def handleAll : A → List PeerRequest → A
  | anchor, [] => anchor
  | anchor, request :: requests => handleAll (request.handle anchors anchor).2 requests

end PeerRequest

end Handlers

end VaultMesh
