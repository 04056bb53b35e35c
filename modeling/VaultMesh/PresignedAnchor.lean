import VaultMesh.Interaction.Layers
import VaultMesh.Router
import VaultMesh.RustFs

/-!
# An anchor behind presigned URLs

A node may hold no credentials for the object store. It then asks the
coordinator for a URL which is signed for one transfer of one shard, and hands
the URL to the store itself. Only the coordinator can delete, and does so when
asked. Each of these requests is a step of its own, between which other nodes
make theirs, and each may fail on its way, before or after it was served.
-/

namespace VaultMesh

open Interaction Files Coding Coding.Serde Coding.Urls

/-! ## The wire -/

inductive PresignOp where
  | put
  | get
  deriving DecidableEq, Repr

namespace PresignOp

def variantName : PresignOp → String
  | .put => "Put"
  | .get => "Get"

def method : PresignOp → Transfer
  | .put => .put
  | .get => .get

instance : Serde PresignOp where
  toJson op := .string op.variantName
  fromJson json := do
    let (name, content) ← variant json
    if isUnit content then
      [PresignOp.put, .get].find? fun op => op.variantName = name
    else
      none
  fromJson_toJson op := by
    cases op <;> rfl

end PresignOp

structure PresignRequest where
  ns : NamespaceId
  blobId : BlobId
  index : UInt16
  op : PresignOp
  deriving DecidableEq, Repr

instance : Serde PresignRequest :=
  struct ["namespace", "blob_id", "index", "op"]
    (fun request => [toJson request.ns, toJson request.blobId, toJson request.index,
      toJson request.op])
    (fun
      | [ns, blobId, index, op] => do
          some ⟨← required ns, ← required blobId, ← required index, ← required op⟩
      | _ => none)
    (by decide) (fun _ => rfl) (by simp)

structure PresignResponse where
  url : String
  expiresSecs : UInt64
  deriving DecidableEq, Repr

instance : Serde PresignResponse :=
  struct ["url", "expires_secs"]
    (fun response => [toJson response.url, toJson response.expiresSecs])
    (fun
      | [url, expiresSecs] => do
          some ⟨← required url, ← required expiresSecs⟩
      | _ => none)
    (by decide) (fun _ => rfl) (by simp)

structure DeleteBlobRequest where
  ns : NamespaceId
  blobId : BlobId
  deriving DecidableEq, Repr

instance : Serde DeleteBlobRequest :=
  struct ["namespace", "blob_id"]
    (fun request => [toJson request.ns, toJson request.blobId])
    (fun
      | [ns, blobId] => do
          some ⟨← required ns, ← required blobId⟩
      | _ => none)
    (by decide) (fun _ => rfl) (by simp)

/-! ## The coordinator -/

/-- The coordinator's access to the object store. -/
structure RustFsPresigner where
  anchor : RustFsBlobAnchor
  urls : SignedUrls

def Timestamp.seconds (time : Timestamp) : ℕ :=
  time.millis.toNat / 1000

def RustFsPresigner.presign (self : RustFsPresigner) (method : Transfer) (ref : ShardRef)
    (ttl : UInt64) (time : Timestamp) : PortResult String :=
  match self.urls.sign method (self.anchor.shardKey ref) time.seconds ttl.toNat with
  | .ok url => .ok url
  | .error reason => .error (RustFsBlobAnchor.backend reason)

/-- How long a URL is valid, in seconds. -/
def ttlSecs : UInt64 :=
  300

def noStore : PortError :=
  .unavailable "presign: no object store configured (set VAULT_S3_*)"

namespace Coordinator

def presign (presigner : Option RustFsPresigner) (req : PresignRequest) :
    UseCase PresignResponse := do
  let presigner ← okOr presigner noStore
  let time ← now
  let url ← Program.done
    (question (presigner.presign req.op.method ⟨req.ns, req.blobId, req.index⟩ ttlSecs time))
  pure ⟨url, ttlSecs⟩

/-- The anchor of the coordinator's own world is the store of its presigner. -/
def deleteAnchored (presigner : Option RustFsPresigner) (req : DeleteBlobRequest) :
    UseCase Unit := do
  let _ ← okOr presigner noStore
  deleteBlob req.ns req.blobId

/-- A handler which takes a body. -/
def acceptBody {ρ : Type} [Serde ρ] (server : Coordinator) (json : Json)
    (handler : ρ → UseCase Response) : UseCase Response :=
  match fromJson json with
  | none => pure ⟨422, server.words.rejection (server.words.toText json)⟩
  | some req => handler req

/-- The coordinator with its handlers for the anchor. -/
def anchoring (server : Coordinator) (presigner : Option RustFsPresigner) : Coordinator :=
  { server with
    accepted := fun endpoint json =>
      match endpoint with
      | .presign => server.acceptBody json fun req => do
          return jsonResponse server.words (← mapErr (presign presigner req))
      | .deleteBlob => server.acceptBody json fun req => do
          return emptyResponse server.words (← mapErr (deleteAnchored presigner req))
      | endpoint => server.accepted endpoint json }

end Coordinator

/-! ## Requests of a node -/

/-- What a node sends for its anchor: to the coordinator, and to the object store. -/
inductive AnchorCall where
  | presign (body : String)
  | deleteBlob (body : String)
  | upload (url : String) (bytes : Bytes)
  | download (url : String)
  deriving DecidableEq

/-- What is heard of a request which is served: an answer of the coordinator, or the status and
the bytes which the store sends. -/
@[reducible]
def AnchorCall.Reply : AnchorCall → Type
  | .presign _ | .deleteBlob _ => Response
  | .upload _ _ => ℕ
  | .download _ => ℕ × Bytes

/-- Every call of a node with such an anchor. -/
inductive NodeCall where
  | port (call : PortCall)
  | anchor (call : AnchorCall)
  deriving DecidableEq

/-- A request to the anchor may also go without an answer. -/
@[reducible]
def NodeCall.Answer : NodeCall → Type
  | .port call => call.Answer
  | .anchor call => Except String call.Reply

@[reducible]
def nodeCalls : Interface where
  Call := NodeCall
  Answer := NodeCall.Answer

abbrev NodeProgram (α : Type) := Program nodeCalls Failure α

abbrev NodeTrace := List (ℕ × Exchange nodeCalls)

/-- `PresignedBlobAnchor`, as far as its methods use it: the libraries, and their wording. -/
structure PresignedBlobAnchor where
  words : Wording

namespace PresignedBlobAnchor

variable (self : PresignedBlobAnchor)

def unavailable (reason : String) : PortError :=
  .unavailable ("presign transport: " ++ reason)

def isSuccess (status : ℕ) : Bool :=
  200 ≤ status && status < 300

/-- The URL in an answer of the coordinator. -/
def urlOf : Except String Response → PortResult String
  | .error reason => .error (unavailable reason)
  | .ok resp =>
      if resp.isSuccess then
        match (self.words.parse resp.body).bind fromJson with
        | some (body : PresignResponse) => .ok body.url
        | none => .error (.serialization (self.words.json resp.body))
      else
        .error (.backend ("coordinator presign returned " ++ self.words.status resp.status))

def uploaded : Except String ℕ → PortResult Unit
  | .error reason => .error (unavailable reason)
  | .ok status =>
      if isSuccess status then
        .ok ()
      else
        .error (.backend ("store put " ++ self.words.status status))

def downloaded : Except String (ℕ × Bytes) → PortResult Bytes
  | .error reason => .error (unavailable reason)
  | .ok (status, bytes) =>
      if isSuccess status then
        .ok bytes
      else if status = 404 ∨ status = 403 then
        .error .notFound
      else
        .error (.backend ("store get " ++ self.words.status status))

def deleted : Except String Response → PortResult Unit
  | .error reason => .error (unavailable reason)
  | .ok resp =>
      if resp.isSuccess then
        .ok ()
      else
        .error (.backend ("coordinator delete-blob returned " ++ self.words.status resp.status))

def presignBody (ref : ShardRef) (op : PresignOp) : String :=
  self.words.toText (toJson (⟨ref.ns, ref.blobId, ref.index, op⟩ : PresignRequest))

def presignedUrl (ref : ShardRef) (op : PresignOp) : NodeProgram (PortResult String) :=
  .call (.anchor (.presign (self.presignBody ref op))) fun answer => .done (.ok (self.urlOf answer))

def putShard (ref : ShardRef) (bytes : Bytes) : NodeProgram (PortResult Unit) := do
  match ← self.presignedUrl ref .put with
  | .error error => pure (.error error)
  | .ok url =>
      .call (.anchor (.upload url bytes)) fun answer => .done (.ok (self.uploaded answer))

def getShard (ref : ShardRef) : NodeProgram (PortResult Bytes) := do
  match ← self.presignedUrl ref .get with
  | .error error => pure (.error error)
  | .ok url =>
      .call (.anchor (.download url)) fun answer => .done (.ok (self.downloaded answer))

def deleteBody (ns : NamespaceId) (blobId : BlobId) : String :=
  self.words.toText (toJson (⟨ns, blobId⟩ : DeleteBlobRequest))

def deleteBlob (ns : NamespaceId) (blobId : BlobId) : NodeProgram (PortResult Unit) :=
  .call (.anchor (.deleteBlob (self.deleteBody ns blobId))) fun answer =>
    .done (.ok (self.deleted answer))

/-- How a node carries out the calls of its use-cases. -/
def carry : (call : PortCall) → NodeProgram call.Answer
  | .putShard ref bytes => self.putShard ref bytes
  | .getShard ref => self.getShard ref
  | .deleteBlob ns blobId => self.deleteBlob ns blobId
  | call => .call (.port call) fun answer => .done (.ok answer)

end PresignedBlobAnchor

/-! ## The parties -/

/-- What becomes of a request on its way. A refusal may come from whatever stands between. -/
inductive Outage where
  | refused (status : ℕ) (failed : PresignedBlobAnchor.isSuccess status = false)
  | unreached (reason : String)
  | lost (reason : String)

/-- The coordinator and the object store, as the nodes reach them. -/
structure Parties where
  server : Coordinator
  matching : Matching
  presigner : RustFsPresigner
  outages : ℕ → Option Outage

/-- The same world, some time later. -/
def World.waited {A : Type} (state : World A) : World A :=
  { state with tick := state.tick + 1 }

namespace Parties

variable (self : Parties) (env : Environment)

def coordinator : Coordinator :=
  self.server.anchoring (some self.presigner)

/-- What the coordinator answers, and does. -/
def ask (path body : String) (state : World Bucket) : Except String Response × World Bucket :=
  let ran := (self.coordinator.respond self.matching .post path body).run
    (world env self.presigner.anchor.model) state
  (match ran.1 with
    | .ok resp => .ok resp
    | .error _ => .error self.server.words.transport,
    { ran.2 with tick := state.tick + 1 })

/-- What the store answers to an upload, and keeps. -/
def store (url : String) (bytes : Bytes) (state : World Bucket) : Except String ℕ × World Bucket :=
  match self.presigner.urls.opens .put url (env.clock state.tick).seconds with
  | none => (.ok 403, state.waited)
  | some key =>
      match self.presigner.anchor.service.put state.anchor key bytes with
      | (.ok (), bucket) => (.ok 200, { state.waited with anchor := bucket })
      | (.error _, bucket) => (.ok 500, { state.waited with anchor := bucket })

def load (url : String) (state : World Bucket) : Except String (ℕ × Bytes) × World Bucket :=
  match self.presigner.urls.opens .get url (env.clock state.tick).seconds with
  | none => (.ok (403, []), state.waited)
  | some key =>
      match self.presigner.anchor.service.get state.anchor key with
      | .ok bytes => (.ok (200, bytes), state.waited)
      | .error .notFound => (.ok (404, []), state.waited)
      | .error (.refused _) => (.ok (500, []), state.waited)

def serve : (call : AnchorCall) → World Bucket → Except String call.Reply × World Bucket
  | .presign body => self.ask env "/v1/anchor/presign" body
  | .deleteBlob body => self.ask env "/v1/anchor/delete-blob" body
  | .upload url bytes => self.store env url bytes
  | .download url => self.load env url

/-- A status without anything else. -/
def refusal (status : ℕ) : (call : AnchorCall) → call.Reply
  | .presign _ | .deleteBlob _ => ⟨status, ""⟩
  | .upload _ _ => status
  | .download _ => (status, [])

/-- An answer, and what was done, when the request met with the outage. -/
def met (call : AnchorCall) (state : World Bucket) :
    Option Outage → Except String call.Reply × World Bucket
  | none => self.serve env call state
  | some (.refused status _) => (.ok (refusal status call), state.waited)
  | some (.unreached reason) => (.error reason, state.waited)
  | some (.lost reason) => (.error reason, (self.serve env call state).2)

end Parties

/-- The world of nodes whose anchor is behind presigned URLs. -/
def presignedWorld (parties : Parties) (env : Environment) :
    Handler nodeCalls (World Bucket) where
  answer state
    | .port call => (world env parties.presigner.anchor.model).answer state call
    | .anchor call => parties.met env call state (parties.outages state.tick)

end VaultMesh
