import VaultMesh.Domain
import VaultMesh.Interaction.Program

/-!
# Ports

The use-cases reach storage, clocks, peers and keys only through ports. Every
port method which may wait or touch shared state is a call of the interface
`ports`; a use-case is a program over it, so each call is one atomic action of
the surrounding system. Erasure coding and hashing are synchronous and pure in
the source and stay functions here.

A use-case ends with a value, with a `PortError`, or by panicking, which in the
source unwinds the task without an answer.
-/

namespace VaultMesh

open Interaction

/-- How a use-case stops without a value. -/
inductive Failure where
  | port (error : PortError)
  | panicked (message : String)
  deriving DecidableEq, Repr

/-- The methods of `Clock`, `IdSource`, the token ports, `MetadataStore`, `BlobAnchor` and
`ShardTransport`. -/
inductive PortCall where
  | now
  | newId (kind : String)
  | sign (claims : CapabilityClaims)
  | verifySignature (token : CapabilityToken)
  | registerApp (contract : AppContract)
  | getContract (app : AppId)
  | createNamespace (ns : Namespace)
  | getNamespace (id : NamespaceId)
  | namespaceUsage (id : NamespaceId)
  | listNamespaces
  | putManifest (manifest : Manifest)
  | getManifest (ns : NamespaceId) (blobId : BlobId)
  | listBlobs (ns : NamespaceId)
  | deleteManifest (ns : NamespaceId) (blobId : BlobId)
  | putShard (ref : ShardRef) (bytes : Bytes)
  | getShard (ref : ShardRef)
  | deleteBlob (ns : NamespaceId) (blobId : BlobId)
  | sendShard (peer : String) (ref : ShardRef) (bytes : Bytes)
  | fetchShard (peer : String) (ref : ShardRef)
  deriving DecidableEq

@[reducible]
def PortCall.Answer : PortCall → Type
  | .now => Timestamp
  | .newId _ => String
  | .sign _ => PortResult CapabilityToken
  | .verifySignature _ => PortResult Unit
  | .registerApp _ => PortResult Unit
  | .getContract _ => PortResult (Option AppContract)
  | .createNamespace _ => PortResult Unit
  | .getNamespace _ => PortResult (Option Namespace)
  | .namespaceUsage _ => PortResult NamespaceUsage
  | .listNamespaces => PortResult (List NamespaceId)
  | .putManifest _ => PortResult Unit
  | .getManifest _ _ => PortResult (Option Manifest)
  | .listBlobs _ => PortResult (List BlobId)
  | .deleteManifest _ _ => PortResult Unit
  | .putShard _ _ => PortResult Unit
  | .getShard _ => PortResult Bytes
  | .deleteBlob _ _ => PortResult Unit
  | .sendShard _ _ _ => PortResult Unit
  | .fetchShard _ _ => PortResult Bytes

@[reducible]
def ports : Interface where
  Call := PortCall
  Answer := PortCall.Answer

abbrev UseCase (α : Type) := Program ports Failure α

abbrev PortExchange := Exchange ports

/-- `?` on the result of a port: an error ends the use-case. -/
def question {α : Type} : PortResult α → Except Failure α
  | .ok value => .ok value
  | .error error => .error (.port error)

@[simp]
theorem question_ok {α : Type} (value : α) : question (.ok value) = .ok value :=
  rfl

theorem question_eq_ok {α : Type} {result : PortResult α} {value : α}
    (went : question result = .ok value) : result = .ok value := by
  cases result with
  | ok found => exact congrArg Except.ok (Except.ok.inj went)
  | error error => cases went

/-- `ok_or(error)?`. -/
def okOr {α : Type} (value : Option α) (error : PortError) : UseCase α :=
  match value with
  | some found => pure found
  | none => Program.fail (.port error)

@[simp]
theorem okOr_some {α : Type} (value : α) (error : PortError) :
    okOr (some value) error = pure value :=
  rfl

@[simp]
theorem okOr_none {α : Type} (error : PortError) :
    okOr (none : Option α) error = Program.fail (.port error) :=
  rfl

/-! ## Calling a port -/

def now : UseCase Timestamp :=
  .call .now fun answer => .done (.ok answer)

def newId (kind : String) : UseCase String :=
  .call (.newId kind) fun answer => .done (.ok answer)

/-- The nonce of a token is a fresh id too. -/
def newNonce : UseCase Nonce :=
  .call (.newId "nonce") fun answer => .done (.ok ⟨answer⟩)

def sign (claims : CapabilityClaims) : UseCase CapabilityToken :=
  .call (.sign claims) fun answer => .done (question answer)

def verifySignature (token : CapabilityToken) : UseCase Unit :=
  .call (.verifySignature token) fun answer => .done (question answer)

def storeContract (contract : AppContract) : UseCase Unit :=
  .call (.registerApp contract) fun answer => .done (question answer)

def getContract (app : AppId) : UseCase (Option AppContract) :=
  .call (.getContract app) fun answer => .done (question answer)

def storeNamespace (ns : Namespace) : UseCase Unit :=
  .call (.createNamespace ns) fun answer => .done (question answer)

def getNamespace (id : NamespaceId) : UseCase (Option Namespace) :=
  .call (.getNamespace id) fun answer => .done (question answer)

def namespaceUsage (id : NamespaceId) : UseCase NamespaceUsage :=
  .call (.namespaceUsage id) fun answer => .done (question answer)

def listNamespaces : UseCase (List NamespaceId) :=
  .call .listNamespaces fun answer => .done (question answer)

def putManifest (manifest : Manifest) : UseCase Unit :=
  .call (.putManifest manifest) fun answer => .done (question answer)

def getManifest (ns : NamespaceId) (blobId : BlobId) : UseCase (Option Manifest) :=
  .call (.getManifest ns blobId) fun answer => .done (question answer)

def listBlobs (ns : NamespaceId) : UseCase (List BlobId) :=
  .call (.listBlobs ns) fun answer => .done (question answer)

def deleteManifest (ns : NamespaceId) (blobId : BlobId) : UseCase Unit :=
  .call (.deleteManifest ns blobId) fun answer => .done (question answer)

def putShard (ref : ShardRef) (bytes : Bytes) : UseCase Unit :=
  .call (.putShard ref bytes) fun answer => .done (question answer)

/-- Read a shard and keep the outcome as a value, as a `match` on the call does. -/
def getShard (ref : ShardRef) : UseCase (PortResult Bytes) :=
  .call (.getShard ref) fun answer => .done (.ok answer)

def deleteBlob (ns : NamespaceId) (blobId : BlobId) : UseCase Unit :=
  .call (.deleteBlob ns blobId) fun answer => .done (question answer)

def sendShard (peer : String) (ref : ShardRef) (bytes : Bytes) : UseCase (PortResult Unit) :=
  .call (.sendShard peer ref bytes) fun answer => .done (.ok answer)

def fetchShard (peer : String) (ref : ShardRef) : UseCase (PortResult Bytes) :=
  .call (.fetchShard peer ref) fun answer => .done (.ok answer)

/-! ## Synchronous ports -/

/-- Splits a blob into shards of which any `k` reconstruct it. -/
structure ErasureCoder where
  encode : Bytes → ErasureParams → Except Failure (List Bytes)
  decode : List (Option Bytes) → ErasureParams → ℕ → Except Failure Bytes

/-- Hex digests are unambiguous: the collision-freedom assumed of SHA-256. -/
def CollisionFree (sha256Hex : Bytes → String) : Prop :=
  Function.Injective sha256Hex

end VaultMesh
