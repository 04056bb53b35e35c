import Mathlib.Data.List.Sort
import VaultMesh.Coding.Erasures
import VaultMesh.Ports

/-!
# The use-cases

The services of `vault-app`, each a program over the ports, together with the
coordinator's `set_manifest_name`. Every loop of the source is a recursion over
the list it walks, and every `await` on a port is one call.
-/

namespace VaultMesh

open Interaction Coding

/-! ## The authorization guard -/

def fromDomain {α : Type} : Except DomainError α → Except Failure α
  | .ok value => .ok value
  | .error error => .error (.port (.domain error))

/-- Verify a token for `operation` on `ns` and return the authenticated application. -/
def authorize (ns : NamespaceId) (token : CapabilityToken) (operation : Operation) :
    UseCase AppId := do
  verifySignature token
  let app := token.claims.appId
  let time ← now
  Program.done (fromDomain (token.authorize app ns operation time))
  let found ← getNamespace ns
  let owned ← okOr found .notFound
  if owned.ownedBy app then pure app else Program.fail (.port (.domain .unauthorized))

/-! ## Control plane -/

def RegisterApp.execute (quota : Quota) (retention : RetentionPolicy) (erasure : ErasureParams) :
    UseCase AppContract := do
  let id ← newId "app"
  let contract := AppContract.new ⟨id⟩ quota retention erasure
  storeContract contract
  pure contract

def CreateNamespace.execute (app : AppId) : UseCase Namespace := do
  let found ← getContract app
  match found with
  | none => Program.fail (.port .notFound)
  | some _ => do
      let id ← newId "ns"
      let ns : Namespace := ⟨⟨id⟩, app⟩
      storeNamespace ns
      pure ns

def maxTokenTtlSecs : UInt64 := 15 * 60

/-- `ttl_secs.clamp(1, MAX_TOKEN_TTL_SECS)`. -/
def clampTtl (ttlSecs : UInt64) : UInt64 :=
  if ttlSecs < 1 then 1 else if maxTokenTtlSecs < ttlSecs then maxTokenTtlSecs else ttlSecs

def IssueCapability.execute (app : AppId) (ns : NamespaceId) (operation : Operation)
    (ttlSecs : UInt64) : UseCase CapabilityToken := do
  let found ← getNamespace ns
  let owned ← okOr found .notFound
  if owned.ownedBy app then do
    let time ← now
    let expiresAt := time.plusSecs (clampTtl ttlSecs)
    let nonce ← newNonce
    sign ⟨app, ns, operation, nonce, expiresAt⟩
  else
    Program.fail (.port (.domain .unauthorized))

/-! ## Replicas -/

/-- The first copy of a shard which a recorded peer returns with the recorded hash. -/
def fetchReplica (sha256Hex : Bytes → String) (ref : ShardRef) (shard : Shard) :
    List ShardLocation → UseCase (Option Bytes)
  | [] => pure none
  | .anchor :: locations => fetchReplica sha256Hex ref shard locations
  | .peer peer :: locations => do
      let outcome ← fetchShard peer ref
      match outcome with
      | .ok bytes =>
          if sha256Hex bytes = shard.sha256 then
            pure (some bytes)
          else
            fetchReplica sha256Hex ref shard locations
      | .error _ => fetchReplica sha256Hex ref shard locations

/-! ## Put -/

/-- Peer-mesh configuration; `transport` says whether one is set. -/
structure Mesh where
  transport : Bool
  peers : List String
  placement : PlacementPolicy

structure PutBackup where
  erasure : ErasureCoder
  sha256Hex : Bytes → String
  mesh : Mesh

namespace PutBackup

/-- Push a shard to each peer; the peers which accepted it. -/
def sendToPeers (ref : ShardRef) (bytes : Bytes) : List String → UseCase (List String)
  | [] => pure []
  | peer :: peers => do
      let outcome ← sendShard peer ref bytes
      let placed ← sendToPeers ref bytes peers
      match outcome with
      | .ok _ => pure (peer :: placed)
      | .error _ => pure placed

/-- Best-effort replication of one shard. -/
def replicate (self : PutBackup) (ref : ShardRef) (bytes : Bytes) : UseCase (List String) :=
  if self.mesh.placement.preferPeers = false then
    pure []
  else if self.mesh.transport = false then
    pure []
  else
    sendToPeers ref bytes self.mesh.peers

/-- The metadata recorded for one shard. -/
def shardMeta (self : PutBackup) (index : ℕ) (bytes : Bytes) (placed : List String) : Shard :=
  { Shard.new (UInt16.ofNat index) (self.sha256Hex bytes) (UInt32.ofNat bytes.length) with
    locations := [.anchor] ++ placed.map .peer }

/-- Write every shard to the anchor, then to the peers, from position `index` on. -/
def storeShards (self : PutBackup) (ns : NamespaceId) (blobId : BlobId) :
    ℕ → List Bytes → UseCase (List Shard)
  | _, [] => pure []
  | index, bytes :: rest => do
      let ref : ShardRef := ⟨ns, blobId, UInt16.ofNat index⟩
      putShard ref bytes
      let placed ← self.replicate ref bytes
      let shards ← self.storeShards ns blobId (index + 1) rest
      pure (self.shardMeta index bytes placed :: shards)

/-- `ciphertext.len() as u64`. -/
def sliceLen (ciphertext : Slice) : UInt64 :=
  UInt64.ofNat ciphertext.bytes.length

/-- The part of a put after the quota check. -/
def store (self : PutBackup) (ns : NamespaceId) (contract : AppContract) (ciphertext : Slice) :
    UseCase BlobId := do
  let id ← newId "blob"
  let blobId : BlobId := ⟨id⟩
  let shards ← Program.done (self.erasure.encode ciphertext.bytes contract.erasure)
  let recorded ← self.storeShards ns blobId 0 shards
  let time ← now
  putManifest (Manifest.new blobId ns contract.erasure recorded (sliceLen ciphertext) time)
  pure blobId

def execute (self : PutBackup) (ns : NamespaceId) (token : CapabilityToken)
    (ciphertext : Slice) : UseCase BlobId := do
  let app ← authorize ns token .put
  let found ← getContract app
  let contract ← okOr found .notFound
  let usage ← namespaceUsage ns
  if contract.quota.admits usage.bytes usage.objects (sliceLen ciphertext) then
    self.store ns contract ciphertext
  else
    Program.fail (.port (.domain .quotaExceeded))

end PutBackup

/-! ## Get -/

/-- Reconstructs one blob's ciphertext; `transport` says whether a mesh is set. -/
structure GetBackup where
  erasure : ErasureCoder
  sha256Hex : Bytes → String
  transport : Bool

/-- Result of a restore, including how degraded the blob was. -/
structure RestoreOutcome where
  ciphertext : Bytes
  shardsTotal : ℕ
  shardsMissing : ℕ
  deriving DecidableEq, Repr

namespace GetBackup

def loadFromPeers (self : GetBackup) (ref : ShardRef) (shard : Shard) : UseCase (Option Bytes) :=
  if self.transport then fetchReplica self.sha256Hex ref shard shard.locations else pure none

/-- The anchor's copy of a shard, if it has the recorded hash. -/
def loadFromAnchor (self : GetBackup) (ref : ShardRef) (shard : Shard) :
    UseCase (Option Bytes) := do
  let outcome ← getShard ref
  match outcome with
  | .ok bytes => if self.sha256Hex bytes = shard.sha256 then pure (some bytes) else pure none
  | .error _ => pure none

/-- Load one shard, preferring peers, then the anchor. -/
def loadShard (self : GetBackup) (ref : ShardRef) (shard : Shard) : UseCase (Option Bytes) := do
  let replica ← self.loadFromPeers ref shard
  match replica with
  | some bytes => pure (some bytes)
  | none => self.loadFromAnchor ref shard

/-- One slot for every shard of the manifest, in the manifest's order. -/
def collect (self : GetBackup) (ns : NamespaceId) (blobId : BlobId) :
    List Shard → UseCase (List (Option Bytes))
  | [] => pure []
  | shard :: shards => do
      let slot ← self.loadShard ⟨ns, blobId, shard.index⟩ shard
      let slots ← self.collect ns blobId shards
      pure (slot :: slots)

/-- Decode what was collected, if enough slots are filled. -/
def decodeCollected (self : GetBackup) (manifest : Manifest) (collected : List (Option Bytes)) :
    Except Failure RestoreOutcome :=
  let available := filled collected
  let total := manifest.shards.length
  let k := manifest.erasure.k.toNat
  if manifest.isReconstructable available then do
    let ciphertext ← self.erasure.decode collected manifest.erasure manifest.ciphertextLen.toNat
    .ok ⟨ciphertext, total, total - available⟩
  else
    .error (.port (.unavailable s!"only {available} valid of {total} shards (need k={k})"))

/-- The part of a restore after authorization. -/
def reconstruct (self : GetBackup) (ns : NamespaceId) (blobId : BlobId) :
    UseCase RestoreOutcome := do
  let found ← getManifest ns blobId
  let manifest ← okOr found .notFound
  let collected ← self.collect ns blobId manifest.shards
  Program.done (self.decodeCollected manifest collected)

def restore (self : GetBackup) (ns : NamespaceId) (token : CapabilityToken) (blobId : BlobId) :
    UseCase RestoreOutcome := do
  let _ ← authorize ns token .get
  self.reconstruct ns blobId

def execute (self : GetBackup) (ns : NamespaceId) (token : CapabilityToken) (blobId : BlobId) :
    UseCase Bytes := do
  let outcome ← self.restore ns token blobId
  pure outcome.ciphertext

end GetBackup

/-! ## List -/

def ListBackups.execute (ns : NamespaceId) (token : CapabilityToken) : UseCase (List BlobId) := do
  let _ ← authorize ns token .list
  listBlobs ns

/-! ## Usage -/

/-- One namespace of a statement. -/
structure NamespaceLine where
  ns : NamespaceId
  bytes : UInt64
  objects : UInt64
  deriving DecidableEq, Repr

/-- What an application stores over all its namespaces. -/
structure UsageStatement where
  appId : AppId
  lines : List NamespaceLine
  totalBytes : UInt64
  totalObjects : UInt64
  quotaMaxBytes : UInt64
  estimatedCostMicros : UInt64
  deriving DecidableEq, Repr

namespace UsageReport

def microsPerGib : UInt64 := 20000

def bytesPerGib : UInt64 := (1 : UInt64) <<< 30

/-- The lines of the application's namespaces, with the totals counted up from those given. -/
def collectLines (app : AppId) : List NamespaceId → UInt64 → UInt64 →
    UseCase (List NamespaceLine × UInt64 × UInt64)
  | [], totalBytes, totalObjects => pure ([], totalBytes, totalObjects)
  | ns :: rest, totalBytes, totalObjects => do
      let found ← getNamespace ns
      match found with
      | none => collectLines app rest totalBytes totalObjects
      | some owned =>
          if owned.appId = app then do
            let usage ← namespaceUsage ns
            let (lines, totals) ←
              collectLines app rest (totalBytes + usage.bytes) (totalObjects + usage.objects)
            pure (⟨ns, usage.bytes, usage.objects⟩ :: lines, totals)
          else
            collectLines app rest totalBytes totalObjects

def execute (app : AppId) : UseCase UsageStatement := do
  let found ← getContract app
  let contract ← okOr found .notFound
  let namespaces ← listNamespaces
  let (lines, totalBytes, totalObjects) ← collectLines app namespaces 0 0
  pure ⟨app, lines, totalBytes, totalObjects, contract.quota.maxBytes,
    saturatingMul totalBytes microsPerGib / bytesPerGib⟩

end UsageReport

/-! ## Repair -/

/-- Rebuilds missing and corrupt shards on the anchor; `transport` says whether a mesh is set. -/
structure RepairShards where
  erasure : ErasureCoder
  sha256Hex : Bytes → String
  transport : Bool

structure RepairReport where
  blobId : BlobId
  checked : ℕ
  healthy : ℕ
  repaired : ℕ
  stillBad : ℕ
  unrepairable : Bool
  deriving DecidableEq, Repr

namespace RepairShards

/-- Read every shard from the anchor: the valid ones by position, the bad ones by index. -/
def classify (self : RepairShards) (ns : NamespaceId) (blobId : BlobId) :
    List Shard → UseCase (List (Option Bytes) × List UInt16)
  | [] => pure ([], [])
  | shard :: shards => do
      let outcome ← getShard ⟨ns, blobId, shard.index⟩
      match outcome with
      | .ok bytes => do
          let (collected, bad) ← self.classify ns blobId shards
          if self.sha256Hex bytes = shard.sha256 then
            pure (some bytes :: collected, bad)
          else
            pure (none :: collected, shard.index :: bad)
      | .error .notFound => do
          let (collected, bad) ← self.classify ns blobId shards
          pure (none :: collected, shard.index :: bad)
      | .error other => Program.fail (.port other)

/-- Fill bad slots from peers until `k` shards are available. -/
def backfill (self : RepairShards) (ns : NamespaceId) (blobId : BlobId) (k : ℕ)
    (bad : List UInt16) :
    List Shard → List (Option Bytes) → ℕ → UseCase (List (Option Bytes))
  | [], collected, _ => pure collected
  | shard :: shards, collected, available =>
      if k ≤ available then
        pure collected
      else if shard.index ∉ bad then
        self.backfill ns blobId k bad shards collected available
      else do
        let replica ← fetchReplica self.sha256Hex ⟨ns, blobId, shard.index⟩ shard shard.locations
        match replica with
        | some bytes =>
            if shard.index.toNat < collected.length then
              self.backfill ns blobId k bad shards
                (collected.set shard.index.toNat (some bytes)) (available + 1)
            else
              Program.fail (.panicked "index out of bounds")
        | none => self.backfill ns blobId k bad shards collected available

/-- `RepairShards::backfill_from_peers`, with the slots it leaves. -/
def backfillFromPeers (self : RepairShards) (ns : NamespaceId) (blobId : BlobId)
    (manifest : Manifest) (collected : List (Option Bytes)) (bad : List UInt16) :
    UseCase (List (Option Bytes)) :=
  if self.transport then
    self.backfill ns blobId manifest.erasure.k.toNat bad manifest.shards collected
      (filled collected)
  else
    pure collected

/-- Push a repaired shard to its recorded peers, ignoring failures. -/
def sendToRecorded (ref : ShardRef) (bytes : Bytes) : List ShardLocation → UseCase Unit
  | [] => pure ()
  | .anchor :: locations => sendToRecorded ref bytes locations
  | .peer peer :: locations => do
      let _ ← sendShard peer ref bytes
      sendToRecorded ref bytes locations

def reReplicate (self : RepairShards) (ref : ShardRef) (bytes : Bytes) (shard : Shard) :
    UseCase Unit :=
  if self.transport then sendToRecorded ref bytes shard.locations else pure ()

/-- Rewrite the bad shards from the fresh encoding; how many were rewritten. -/
def rewrite (self : RepairShards) (ns : NamespaceId) (blobId : BlobId) (bad : List UInt16)
    (fresh : List Bytes) : List Shard → UseCase ℕ
  | [] => pure 0
  | shard :: shards =>
      if shard.index ∉ bad then
        self.rewrite ns blobId bad fresh shards
      else
        match fresh[shard.index.toNat]? with
        | none => Program.fail (.panicked "index out of bounds")
        | some bytes => do
            let ref : ShardRef := ⟨ns, blobId, shard.index⟩
            putShard ref bytes
            self.reReplicate ref bytes shard
            let repaired ← self.rewrite ns blobId bad fresh shards
            pure (repaired + 1)

/-- Decode, encode again and rewrite, once enough slots are filled. -/
def rebuild (self : RepairShards) (ns : NamespaceId) (blobId : BlobId) (manifest : Manifest)
    (collected : List (Option Bytes)) (bad : List UInt16) : UseCase RepairReport := do
  let checked := manifest.shards.length
  let healthy := checked - bad.length
  if manifest.isReconstructable (filled collected) then do
    let data ← Program.done
      (self.erasure.decode collected manifest.erasure manifest.ciphertextLen.toNat)
    let fresh ← Program.done (self.erasure.encode data manifest.erasure)
    let repaired ← self.rewrite ns blobId bad fresh manifest.shards
    pure ⟨blobId, checked, healthy + repaired, repaired, 0, false⟩
  else
    pure ⟨blobId, checked, healthy, 0, bad.length, true⟩

def execute (self : RepairShards) (ns : NamespaceId) (blobId : BlobId) :
    UseCase RepairReport := do
  let found ← getManifest ns blobId
  let manifest ← okOr found .notFound
  let (collected, bad) ← self.classify ns blobId manifest.shards
  let checked := manifest.shards.length
  let healthy := checked - bad.length
  if bad = [] then
    pure ⟨blobId, checked, healthy, 0, 0, false⟩
  else if manifest.isReconstructable healthy then
    self.rebuild ns blobId manifest collected bad
  else do
    let borrowed ← self.backfillFromPeers ns blobId manifest collected bad
    self.rebuild ns blobId manifest borrowed bad

end RepairShards

/-! ## Delete -/

namespace DeleteBackup

/-- The two deletions which end a delete. -/
def remove (ns : NamespaceId) (blobId : BlobId) : UseCase Unit := do
  deleteBlob ns blobId
  deleteManifest ns blobId

def execute (ns : NamespaceId) (token : CapabilityToken) (blobId : BlobId) : UseCase Unit := do
  let app ← authorize ns token .delete
  let known ← getContract app
  let contract ← okOr known .notFound
  if 0 < contract.retention.minDays then do
    let found ← getManifest ns blobId
    let manifest ← okOr found .notFound
    let time ← now
    if contract.retention.holdElapsed manifest.createdAt time then
      remove ns blobId
    else
      Program.fail (.port (.domain (.retentionHold contract.retention.minDays)))
  else
    remove ns blobId

end DeleteBackup

/-! ## Prune -/

structure PruneReport where
  objectId : String
  versions : ℕ
  kept : ℕ
  pruned : ℕ
  held : ℕ
  deriving DecidableEq, Repr

namespace PruneVersions

/-- The manifests among `blobs` which carry the object id. -/
def collectVersions (ns : NamespaceId) (objectId : String) : List BlobId → UseCase (List Manifest)
  | [] => pure []
  | blobId :: blobs => do
      let found ← getManifest ns blobId
      let versions ← collectVersions ns objectId blobs
      match found with
      | some manifest =>
          if manifest.objectId = some objectId then
            pure (manifest :: versions)
          else
            pure versions
      | none => pure versions

/-- `sort_by`, newest first; the sort is stable. -/
def newestFirst (versions : List Manifest) : List Manifest :=
  versions.insertionSort fun left right => right.createdAt.millis ≤ left.createdAt.millis

/-- Walk the sorted versions from position `index` on: how many were kept, pruned and held. -/
def deleteOlder (ns : NamespaceId) (retention : RetentionPolicy) (time : Timestamp) (keep : ℕ) :
    ℕ → List Manifest → UseCase (ℕ × ℕ × ℕ)
  | _, [] => pure (0, 0, 0)
  | index, version :: versions =>
      if index < keep then do
        let (kept, pruned, held) ← deleteOlder ns retention time keep (index + 1) versions
        pure (kept + 1, pruned, held)
      else if retention.holdElapsed version.createdAt time then do
        deleteBlob ns version.blobId
        deleteManifest ns version.blobId
        let (kept, pruned, held) ← deleteOlder ns retention time keep (index + 1) versions
        pure (kept, pruned + 1, held)
      else do
        let (kept, pruned, held) ← deleteOlder ns retention time keep (index + 1) versions
        pure (kept, pruned, held + 1)

/-- The sweep over the collected versions; `keep_versions = 0` means unlimited. -/
def sweep (ns : NamespaceId) (objectId : String) (retention : RetentionPolicy)
    (versions : List Manifest) : UseCase PruneReport :=
  let total := versions.length
  let keep := retention.keepVersions.toNat
  if keep = 0 then
    pure ⟨objectId, total, total, 0, 0⟩
  else do
    let time ← now
    let (kept, pruned, held) ← deleteOlder ns retention time keep 0 (newestFirst versions)
    pure ⟨objectId, total, kept, pruned, held⟩

def execute (ns : NamespaceId) (objectId : String) : UseCase PruneReport := do
  let found ← getNamespace ns
  let owned ← okOr found .notFound
  let known ← getContract owned.appId
  let contract ← okOr known .notFound
  let blobs ← listBlobs ns
  let versions ← collectVersions ns objectId blobs
  sweep ns objectId contract.retention versions

end PruneVersions

/-! ## The coordinator's name index -/

structure SetNameRequest where
  nameEnc : String
  objectId : Option String
  deriving DecidableEq, Repr

/-- The manifest with the request's name, and its object id if one was sent. -/
def Manifest.named (manifest : Manifest) (request : SetNameRequest) : Manifest :=
  { manifest with
    nameEnc := some request.nameEnc
    objectId := if request.objectId.isSome then request.objectId else manifest.objectId }

/-- The coordinator's `set_manifest_name`: read, change and write back one manifest. -/
def setManifestName (ns : NamespaceId) (blobId : BlobId) (request : SetNameRequest) :
    UseCase Unit := do
  let found ← getManifest ns blobId
  let manifest ← okOr found .notFound
  putManifest (manifest.named request)

end VaultMesh
