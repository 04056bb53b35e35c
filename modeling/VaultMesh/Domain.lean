import Mathlib.Data.List.Basic
import Mathlib.Tactic.Ring

/-!
# The domain of the vault

Identifiers, contracts, capability tokens and manifests, with the policy
functions of `vault-domain` and the address and error types of `vault-ports`.
Machine integers keep the widths of the source. A `u64` sum or product is
written with the operation the source uses, saturating where it saturates.
-/

namespace VaultMesh

abbrev Bytes := List UInt8

/-- A byte slice, which the language bounds by the largest object size. -/
structure Slice where
  bytes : Bytes
  length_lt : bytes.length < 2 ^ 63

/-! ## Identifiers -/

structure AppId where
  value : String
  deriving DecidableEq, Repr

structure NamespaceId where
  value : String
  deriving DecidableEq, Repr

structure BlobId where
  value : String
  deriving DecidableEq, Repr

structure Nonce where
  value : String
  deriving DecidableEq, Repr

/-! ## Saturating arithmetic -/

def saturatingAdd (left right : UInt64) : UInt64 :=
  UInt64.ofNat (min (left.toNat + right.toNat) (2 ^ 64 - 1))

def saturatingMul (left right : UInt64) : UInt64 :=
  UInt64.ofNat (min (left.toNat * right.toNat) (2 ^ 64 - 1))

def saturatingSub (left right : UInt64) : UInt64 :=
  UInt64.ofNat (left.toNat - right.toNat)

@[simp]
theorem toNat_saturatingAdd (left right : UInt64) :
    (saturatingAdd left right).toNat = min (left.toNat + right.toNat) (2 ^ 64 - 1) := by
  simp only [saturatingAdd, UInt64.toNat_ofNat']
  apply Nat.mod_eq_of_lt
  omega

@[simp]
theorem toNat_saturatingMul (left right : UInt64) :
    (saturatingMul left right).toNat = min (left.toNat * right.toNat) (2 ^ 64 - 1) := by
  simp only [saturatingMul, UInt64.toNat_ofNat']
  apply Nat.mod_eq_of_lt
  omega

@[simp]
theorem toNat_saturatingSub (left right : UInt64) :
    (saturatingSub left right).toNat = left.toNat - right.toNat := by
  simp only [saturatingSub, UInt64.toNat_ofNat']
  apply Nat.mod_eq_of_lt
  have := left.toNat_lt
  omega

/-! ## Time -/

/-- Milliseconds since the Unix epoch. -/
structure Timestamp where
  millis : UInt64
  deriving DecidableEq, Repr

namespace Timestamp

def plusSecs (time : Timestamp) (secs : UInt64) : Timestamp :=
  ⟨saturatingAdd time.millis (saturatingMul secs 1000)⟩

end Timestamp

/-! ## Contracts -/

/-- Reed-Solomon parameters: any `k` of `n` shards reconstruct the blob. -/
structure ErasureParams where
  k : UInt8
  n : UInt8
  deriving DecidableEq, Repr

/-- The rule which the checked constructor enforces. -/
def ErasureParams.Valid (params : ErasureParams) : Prop :=
  1 ≤ params.k.toNat ∧ params.k.toNat ≤ params.n.toNat

instance (params : ErasureParams) : Decidable params.Valid :=
  inferInstanceAs (Decidable (_ ∧ _))

structure Quota where
  maxBytes : UInt64
  maxObjects : UInt64
  deriving DecidableEq, Repr

/-- Whether adding `addBytes` to `objectCount` objects stays in bounds. -/
def Quota.admits (quota : Quota) (currentBytes objectCount addBytes : UInt64) : Bool :=
  decide (saturatingAdd currentBytes addBytes ≤ quota.maxBytes) &&
    decide (objectCount < quota.maxObjects)

structure RetentionPolicy where
  keepVersions : UInt32
  minDays : UInt32
  deriving DecidableEq, Repr

def millisPerDay : ℕ := 86400000

/-- Whether a blob created at `createdAt` may be deleted as of `now`. -/
def RetentionPolicy.holdElapsed (policy : RetentionPolicy) (createdAt now : Timestamp) : Bool :=
  if policy.minDays = 0 then
    true
  else
    decide (saturatingSub now.millis createdAt.millis ≥
      policy.minDays.toUInt64 * UInt64.ofNat millisPerDay)

/-- A hold of `minDays` days elapses exactly when that many days have passed. -/
theorem RetentionPolicy.holdElapsed_iff (policy : RetentionPolicy) (createdAt now : Timestamp) :
    policy.holdElapsed createdAt now = true ↔
      policy.minDays = 0 ∨
        policy.minDays.toNat * millisPerDay + createdAt.millis.toNat ≤ now.millis.toNat := by
  have days := policy.minDays.toNat_lt
  have product : (policy.minDays.toUInt64 * UInt64.ofNat millisPerDay).toNat =
      policy.minDays.toNat * millisPerDay := by
    simp only [UInt64.toNat_mul, UInt32.toNat_toUInt64, UInt64.toNat_ofNat', millisPerDay]
    omega
  by_cases none : policy.minDays = 0
  · simp [holdElapsed, none]
  · have positive : 0 < policy.minDays.toNat := by
      rw [Nat.pos_iff_ne_zero]
      intro zero
      exact none (UInt32.toNat_inj.mp (by simpa using zero))
    simp only [holdElapsed, none, if_false, decide_eq_true_eq, ge_iff_le,
      UInt64.le_iff_toNat_le, product, toNat_saturatingSub, false_or]
    have day : 0 < millisPerDay := by decide
    have hold : 0 < policy.minDays.toNat * millisPerDay := Nat.mul_pos positive day
    omega

structure ProtocolVersion where
  major : UInt16
  minor : UInt16
  deriving DecidableEq, Repr

def ProtocolVersion.current : ProtocolVersion := ⟨1, 0⟩

/-- Payloads are only ever encrypted by the application. -/
inductive EncryptionMode where
  | clientSideOnly
  deriving DecidableEq, Repr

structure AppContract where
  appId : AppId
  protocolVersion : ProtocolVersion
  quota : Quota
  retention : RetentionPolicy
  erasure : ErasureParams
  encryption : EncryptionMode
  deriving DecidableEq, Repr

def AppContract.new (appId : AppId) (quota : Quota) (retention : RetentionPolicy)
    (erasure : ErasureParams) : AppContract :=
  ⟨appId, .current, quota, retention, erasure, .clientSideOnly⟩

/-- A namespace belongs to exactly one application. -/
structure Namespace where
  id : NamespaceId
  appId : AppId
  deriving DecidableEq, Repr

def Namespace.ownedBy (ns : Namespace) (app : AppId) : Bool :=
  decide (ns.appId = app)

/-! ## Capability tokens -/

inductive Operation where
  | put
  | get
  | list
  | delete
  deriving DecidableEq, Repr

def Operation.asStr : Operation → String
  | .put => "put"
  | .get => "get"
  | .list => "list"
  | .delete => "delete"

/-- The signable payload of a capability token. -/
structure CapabilityClaims where
  appId : AppId
  ns : NamespaceId
  operation : Operation
  nonce : Nonce
  expiresAt : Timestamp
  deriving DecidableEq, Repr

/-- The text which is signed, one tagged field per line. -/
def CapabilityClaims.canonicalText (claims : CapabilityClaims) : String :=
  "vaultmesh.cap.v1\napp=" ++ claims.appId.value ++ "\nns=" ++ claims.ns.value ++
    "\nop=" ++ claims.operation.asStr ++ "\nnonce=" ++ claims.nonce.value ++
    "\nexp=" ++ toString claims.expiresAt.millis.toNat ++ "\n"

/-- The bytes signed by the coordinator and verified by the nodes. -/
def CapabilityClaims.canonicalBytes (claims : CapabilityClaims) : ByteArray :=
  claims.canonicalText.toByteArray

structure CapabilityToken where
  claims : CapabilityClaims
  signature : Bytes
  deriving DecidableEq, Repr

/-! ## Errors -/

inductive DomainError where
  | invalidErasureParams (k n : UInt8)
  | tokenExpired
  | unauthorized
  | namespaceMismatch
  | operationNotPermitted (granted requested : Operation)
  | quotaExceeded
  | retentionHold (minDays : UInt32)
  | invalidContract (message : String)
  deriving DecidableEq, Repr

/-- What an adapter returns across a port when it fails. -/
inductive PortError where
  | notFound
  | domain (error : DomainError)
  | crypto (message : String)
  | integrity (message : String)
  | serialization (message : String)
  | unavailable (message : String)
  | backend (message : String)
  deriving DecidableEq, Repr

abbrev PortResult (α : Type) := Except PortError α

def ErasureParams.new (k n : UInt8) : Except DomainError ErasureParams :=
  if k = 0 ∨ n < k then .error (.invalidErasureParams k n) else .ok ⟨k, n⟩

namespace CapabilityToken

/-- A token has expired from its expiry instant on. -/
def isExpired (token : CapabilityToken) (now : Timestamp) : Bool :=
  decide (now.millis ≥ token.claims.expiresAt.millis)

/-- Scope and freshness, independent of the signature. -/
def authorize (token : CapabilityToken) (app : AppId) (ns : NamespaceId) (operation : Operation)
    (now : Timestamp) : Except DomainError Unit :=
  if token.isExpired now then
    .error .tokenExpired
  else if token.claims.appId ≠ app then
    .error .unauthorized
  else if token.claims.ns ≠ ns then
    .error .namespaceMismatch
  else if token.claims.operation ≠ operation then
    .error (.operationNotPermitted token.claims.operation operation)
  else
    .ok ()

theorem authorize_eq_ok_iff (token : CapabilityToken) (app : AppId) (ns : NamespaceId)
    (operation : Operation) (now : Timestamp) :
    token.authorize app ns operation now = .ok () ↔
      now.millis < token.claims.expiresAt.millis ∧ token.claims.appId = app ∧
        token.claims.ns = ns ∧ token.claims.operation = operation := by
  unfold authorize isExpired
  by_cases expired : now.millis ≥ token.claims.expiresAt.millis
  · simp only [expired, decide_true, if_true, reduceCtorEq, false_iff, not_and]
    intro fresh
    exact absurd fresh (UInt64.not_lt.mpr expired)
  · have fresh : now.millis < token.claims.expiresAt.millis := UInt64.not_le.mp expired
    by_cases sameApp : token.claims.appId = app <;>
      by_cases sameNs : token.claims.ns = ns <;>
      by_cases sameOperation : token.claims.operation = operation <;>
      simp [expired, fresh, sameApp, sameNs, sameOperation]

end CapabilityToken

/-! ## Backups -/

inductive ShardLocation where
  | anchor
  | peer (address : String)
  deriving DecidableEq, Repr

structure Shard where
  index : UInt16
  sha256 : String
  size : UInt32
  locations : List ShardLocation
  deriving DecidableEq, Repr

/-- `Shard::new`: every shard is on the anchor. -/
def Shard.new (index : UInt16) (sha256 : String) (size : UInt32) : Shard :=
  ⟨index, sha256, size, [.anchor]⟩

/-- Everything needed to reconstruct a blob. -/
structure Manifest where
  blobId : BlobId
  ns : NamespaceId
  erasure : ErasureParams
  shards : List Shard
  ciphertextLen : UInt64
  createdAt : Timestamp
  nameEnc : Option String
  objectId : Option String
  deriving DecidableEq, Repr

def Manifest.new (blobId : BlobId) (ns : NamespaceId) (erasure : ErasureParams)
    (shards : List Shard) (ciphertextLen : UInt64) (createdAt : Timestamp) : Manifest :=
  ⟨blobId, ns, erasure, shards, ciphertextLen, createdAt, none, none⟩

def Manifest.isReconstructable (manifest : Manifest) (available : ℕ) : Bool :=
  decide (manifest.erasure.k.toNat ≤ available)

structure PlacementPolicy where
  localityHint : Option String
  preferPeers : Bool
  deriving DecidableEq, Repr

/-! ## Addresses -/

/-- Addresses one shard of one blob within a namespace. -/
structure ShardRef where
  ns : NamespaceId
  blobId : BlobId
  index : UInt16
  deriving DecidableEq, Repr

/-- A number in decimal, padded with zeros to five digits as `{:05}` does. -/
def paddedIndex (index : UInt16) : String :=
  let digits := toString index.toNat
  String.ofList (List.replicate (5 - digits.length) '0') ++ digits

/-- The object key `namespace/blob/index.shard`. -/
def ShardRef.objectKey (ref : ShardRef) : String :=
  ref.ns.value ++ "/" ++ ref.blobId.value ++ "/" ++ paddedIndex ref.index ++ ".shard"

structure NamespaceUsage where
  bytes : UInt64
  objects : UInt64
  deriving DecidableEq, Repr

end VaultMesh
