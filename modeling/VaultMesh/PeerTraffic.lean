import VaultMesh.Confinement
import VaultMesh.PeerRequests

/-!
# Peer traffic and the node's own shards

The replicas of peers are files of the same anchor as the node's own shards, and
nothing tells them apart. A request whose key leads to the file of a shard
replaces that shard. What a shard holds after any number of requests is the body
of the last one with this target, and the blob is restorable from the anchor
exactly as long as no more than `n - k` of its shards ended up with other bytes.
-/

namespace VaultMesh

open Interaction Coding Files

/-! ## What the requests overwrite -/

section Overwriting

variable {self : FsBlobAnchor} {files : FileSystem} {location : Location}

def FsBlobAnchor.overwrites (self : FsBlobAnchor) (files : FileSystem) (location : Location)
    (request : PeerRequest) : Option Bytes :=
  match request.replica with
  | some (ref, body) => if self.target files ref = some location then some body else none
  | none => none

/-- The body which the last of the requests to write to the location writes there. -/
def FsBlobAnchor.lastBody (self : FsBlobAnchor) (location : Location) :
    FileSystem → List PeerRequest → Option Bytes
  | _, [] => none
  | files, request :: requests =>
      (self.lastBody location (request.handle self.model files).2 requests).or
        (self.overwrites files location request)

theorem handle_dir (request : PeerRequest) (isDir : files location = some .dir) :
    (request.handle self.model files).2 location = some .dir := by
  rw [PeerRequest.handle_anchor]
  cases request.replica with
  | none => exact isDir
  | some replica =>
      dsimp only [FsBlobAnchor.model]
      exact FsBlobAnchor.putShard_dir isDir

theorem handle_file (request : PeerRequest) {index : UInt16} {bytes : Bytes}
    (isShard : location.getLast? = some (FsBlobAnchor.shardName index))
    (found : files location = some (.file bytes)) :
    (request.handle self.model files).2 location =
      some (.file ((self.overwrites files location request).getD bytes)) := by
  rw [PeerRequest.handle_anchor, FsBlobAnchor.overwrites]
  cases request.replica with
  | none => exact found
  | some replica =>
      dsimp only [FsBlobAnchor.model]
      rw [FsBlobAnchor.putShard_file isShard found]
      split <;> rfl

theorem handleAll_file (requests : List PeerRequest) {index : UInt16} {bytes : Bytes}
    (isShard : location.getLast? = some (FsBlobAnchor.shardName index))
    (found : files location = some (.file bytes)) :
    PeerRequest.handleAll self.model files requests location =
      some (.file ((self.lastBody location files requests).getD bytes)) := by
  induction requests generalizing files bytes with
  | nil => exact found
  | cons request requests ih =>
      rw [PeerRequest.handleAll, ih (handle_file request isShard found), FsBlobAnchor.lastBody]
      cases self.lastBody location (request.handle self.model files).2 requests with
      | none => rfl
      | some body => rfl

theorem handleAll_dir (requests : List PeerRequest) (isDir : files location = some .dir) :
    PeerRequest.handleAll self.model files requests location = some .dir := by
  induction requests generalizing files with
  | nil => exact isDir
  | cons request requests ih => exact ih (handle_dir request isDir)

/-- The last request which writes to the file of the shard replaces its bytes by others. -/
def FsBlobAnchor.spoiled (self : FsBlobAnchor) (files : FileSystem) (requests : List PeerRequest)
    (ref : ShardRef) : Bool :=
  match resolve files self.cwd (self.shardPath ref), self.getShard files ref with
  | .ok location, .ok bytes =>
      match self.lastBody location files requests with
      | some body => decide (body ≠ bytes)
      | none => false
  | _, _ => false

/-- A shard which can be read can be read after the requests, and tells whether it was spoiled. -/
theorem getShard_handleAll (requests : List PeerRequest) {ref : ShardRef} {bytes : Bytes}
    (read : self.getShard files ref = .ok bytes) :
    ∃ now, self.getShard (PeerRequest.handleAll self.model files requests) ref = .ok now ∧
      (now = bytes ↔ self.spoiled files requests ref = false) := by
  rcases FsBlobAnchor.getShard_eq_ok read with ⟨location, resolved, isShard, found⟩
  have stillThere : resolve (PeerRequest.handleAll self.model files requests) self.cwd
      (self.shardPath ref) = .ok location := by
    apply resolve_of_dirs_kept ?_ resolved
    intro other isDir
    exact handleAll_dir requests isDir
  refine ⟨_, FsBlobAnchor.getShard_of_file stillThere (handleAll_file requests isShard found), ?_⟩
  rw [FsBlobAnchor.spoiled, resolved, read]
  cases overwritten : self.lastBody location files requests with
  | none => simp [overwritten]
  | some body => simp [overwritten]

end Overwriting

/-! ## Restoring after peer traffic -/

section Restoring

variable {node : Node} {anchor : FsBlobAnchor} {state : World FileSystem} {ns : NamespaceId}
  {blobId : BlobId}

def World.visited (anchor : FsBlobAnchor) (state : World FileSystem) (traffic : List PeerRequest) :
    World FileSystem :=
  { state with anchor := PeerRequest.handleAll anchor.model state.anchor traffic }

theorem anchorSlot_visited (collisionFree : CollisionFree node.sha256Hex)
    (traffic : List PeerRequest) {shard : Shard} {bytes : Bytes}
    (read : anchor.getShard state.anchor ⟨ns, blobId, shard.index⟩ = .ok bytes)
    (hash : node.sha256Hex bytes = shard.sha256) :
    (GetBackup.anchorSlot node.sha256Hex shard
        (anchor.model.getShard (state.visited anchor traffic).anchor
          ⟨ns, blobId, shard.index⟩)).isSome =
      !anchor.spoiled state.anchor traffic ⟨ns, blobId, shard.index⟩ := by
  rcases getShard_handleAll traffic read with ⟨now, readNow, sameBytes⟩
  have readVisited : anchor.model.getShard (state.visited anchor traffic).anchor
      ⟨ns, blobId, shard.index⟩ = .ok now := readNow
  rw [readVisited, GetBackup.anchorSlot, ← hash]
  by_cases same : now = bytes
  · rw [if_pos (congrArg node.sha256Hex same), sameBytes.mp same]
    rfl
  · rw [if_neg fun sameHash => same (collisionFree sameHash)]
    rw [sameBytes, Bool.not_eq_false] at same
    rw [same]
    rfl

/-- The slots which are filled are those of the shards which were not spoiled. -/
theorem filled_visited (collisionFree : CollisionFree node.sha256Hex)
    (traffic : List PeerRequest) {shards : List Shard}
    (good : ∀ shard ∈ shards, ∃ bytes,
      anchor.getShard state.anchor ⟨ns, blobId, shard.index⟩ = .ok bytes ∧
        node.sha256Hex bytes = shard.sha256) :
    filled (shards.map fun shard => GetBackup.anchorSlot node.sha256Hex shard
        (anchor.model.getShard (state.visited anchor traffic).anchor
          ⟨ns, blobId, shard.index⟩)) +
      shards.countP (fun shard =>
        anchor.spoiled state.anchor traffic ⟨ns, blobId, shard.index⟩) =
    shards.length := by
  rw [filled, List.countP_map, Nat.add_comm,
    List.length_eq_countP_add_countP
      (fun shard : Shard => anchor.spoiled state.anchor traffic ⟨ns, blobId, shard.index⟩)]
  congr 1
  apply List.countP_congr
  intro shard listed
  rcases good shard listed with ⟨bytes, read, hash⟩
  simp only [Function.comp_apply, anchorSlot_visited collisionFree traffic read hash]
  simp

/-- An authorized restore from the anchor alone returns the ciphertext exactly if enough slots
are filled. -/
theorem execute_alone_iff {A : Type} (env : Environment) (anchors : AnchorModel A)
    (collisionFree : CollisionFree node.sha256Hex) {manifest : Manifest} {ciphertext : Bytes}
    {word : List Bytes} (holds : node.Holds manifest ciphertext word) {state : World A}
    (found : state.store.getManifest ns blobId = some manifest) {token : CapabilityToken}
    {app : AppId}
    (authorized : ((authorize ns token .get).run (world env anchors) state).1 = .ok app) :
    (((node.get false).execute ns token blobId).run (world env anchors) state).1 =
        .ok ciphertext ↔
      manifest.erasure.k.toNat ≤ filled (manifest.shards.map fun shard =>
        GetBackup.anchorSlot node.sha256Hex shard
          (anchors.getShard state.anchor ⟨ns, blobId, shard.index⟩)) := by
  have checked : (authorize ns token .get).run (world env anchors) state =
      (.ok app, ((authorize ns token .get).run (world env anchors) state).2) :=
    Prod.ext authorized rfl
  rcases authorize_run_unchanged checked with ⟨sameStore, sameAnchor⟩
  rw [← sameStore] at found
  have alone : (node.get false).transport = false := rfl
  have restored := GetBackup.reconstruct_alone env anchors alone found
  rw [sameAnchor] at restored
  have masks : Masks (manifest.shards.map fun shard =>
      GetBackup.anchorSlot node.sha256Hex shard
        (anchors.getShard state.anchor ⟨ns, blobId, shard.index⟩)) word := by
    apply holds.encodes.records.masks collisionFree
    rw [List.forall₂_map_right_iff, List.forall₂_same]
    intro shard listed bytes filledWith
    exact (GetBackup.anchorSlot_eq_some_iff.mp filledWith).2
  rcases Node.decodeCollected_ok_iff holds false masks with ⟨succeeds, original⟩
  rw [← succeeds, GetBackup.execute, GetBackup.restore, Program.bind_assoc,
    Program.run_bind_of_ok checked]
  cases decoded : (node.get false).decodeCollected manifest (manifest.shards.map fun shard =>
      GetBackup.anchorSlot node.sha256Hex shard
        (anchors.getShard state.anchor ⟨ns, blobId, shard.index⟩)) with
  | error failure =>
      rw [Program.run_bind_of_error (Prod.ext (restored.trans decoded) rfl)]
      simp
  | ok outcome =>
      rw [Program.run_bind_of_ok (Prod.ext (restored.trans decoded) rfl),
        ← original outcome decoded]
      exact ⟨fun _ => ⟨outcome, rfl⟩, fun _ => rfl⟩

end Restoring

/--
In every state which any interleaving of requests reaches, take a stored blob all
of whose shards on the anchor match their hashes. After any requests of peers, an
authorized restore from the anchor alone returns what was put exactly if at most
`n - k` of its shards were left with other bytes by the last request which wrote
to their files.
-/
theorem peer_traffic_harmless_iff {node : Node} (collisionFree : CollisionFree node.sha256Hex)
    {env : Environment} (fresh : Function.Injective env.uuid) (anchor : FsBlobAnchor)
    {first : World FileSystem} (none : ∀ ns blobId, first.store.getManifest ns blobId = none)
    (supported : ∀ app contract, first.store.getContract app = some contract →
      node.Supports contract)
    (requests : List Request) (schedule : List ℕ) {state : World FileSystem} {trace : Trace}
    (reached : (System.exec (world env anchor.model)
      (System.start first (requests.map (Request.program node))) schedule).state = state)
    (traced : (System.exec (world env anchor.model)
      (System.start first (requests.map (Request.program node))) schedule).trace = trace)
    {ns : NamespaceId} {blobId : BlobId} {manifest : Manifest}
    (found : state.store.getManifest ns blobId = some manifest)
    (good : ∀ shard ∈ manifest.shards, ∃ bytes,
      anchor.getShard state.anchor ⟨ns, blobId, shard.index⟩ = .ok bytes ∧
        node.sha256Hex bytes = shard.sha256) :
    ∃ ciphertext, PutBy requests trace manifest ciphertext ∧
      ∀ (traffic : List PeerRequest) (token : CapabilityToken) (app : AppId),
        ((authorize ns token .get).run (world env anchor.model) (state.visited anchor traffic)).1 =
          .ok app →
        ((((node.get false).execute ns token blobId).run (world env anchor.model)
            (state.visited anchor traffic)).1 = .ok ciphertext.bytes ↔
          manifest.shards.countP (fun shard =>
              anchor.spoiled state.anchor traffic ⟨ns, blobId, shard.index⟩) ≤
            manifest.erasure.n.toNat - manifest.erasure.k.toNat) := by
  rcases ledger_exec fresh none anchor.model node requests schedule with ⟨obedient, ledger⟩
  have lawful := obedient.lawful
  rw [traced] at lawful
  rw [reached, traced] at ledger
  rcases ledger.holds_of_stored lawful supported found with ⟨ciphertext, word, put, holds⟩
  refine ⟨ciphertext, put, ?_⟩
  intro traffic token app authorized
  have foundAfter : (state.visited anchor traffic).store.getManifest ns blobId = some manifest :=
    found
  rw [execute_alone_iff env anchor.model collisionFree holds foundAfter authorized]
  have counted := filled_visited collisionFree traffic good
  rw [holds.length_shards] at counted
  rcases holds.valid with ⟨-, fits⟩
  omega

/-! ## Peers which overwrite the stored byte -/

def visitedRestore (traffic : List PeerRequest) : Except Failure Bytes :=
  (((replicatingNode.get false).execute ⟨"ns-1"⟩ (sampleToken .get) ⟨"blob-5"⟩).run
    (world sampleEnvironment dataAnchor.model) (dataStored.visited dataAnchor traffic)).1

theorem dataStored_good :
    dataStored.store.getManifest ⟨"ns-1"⟩ ⟨"blob-5"⟩ = some (sampleManifest [.anchor]) ∧
    ∀ shard ∈ (sampleManifest [.anchor]).shards, ∃ bytes,
      dataAnchor.getShard dataStored.anchor ⟨⟨"ns-1"⟩, ⟨"blob-5"⟩, shard.index⟩ = .ok bytes ∧
        replicatingNode.sha256Hex bytes = shard.sha256 := by
  have evaluated :
      dataStored.store.getManifest ⟨"ns-1"⟩ ⟨"blob-5"⟩ = some (sampleManifest [.anchor]) ∧
      ∀ shard ∈ (sampleManifest [.anchor]).shards,
        dataAnchor.getShard dataStored.anchor ⟨⟨"ns-1"⟩, ⟨"blob-5"⟩, shard.index⟩ = .ok [7] ∧
          replicatingNode.sha256Hex [7] = shard.sha256 := by
    decide +kernel
  refine ⟨evaluated.1, ?_⟩
  intro shard listed
  exact ⟨[7], evaluated.2 shard listed⟩

theorem peer_traffic_harmless_iff_oneOverwritten :
    visitedRestore [.put "ns-1" "blob-5" 0 [9], .get "ns-1" "blob-5" 1] = .ok [7] := by
  have supported : ∀ app contract, dataWorld.store.getContract app = some contract →
      replicatingNode.Supports contract := fun _ _ known => replicatingNode_supports known
  have nothing : ∀ ns blobId, dataWorld.store.getManifest ns blobId = none := fun _ _ => rfl
  have reached : (System.exec (world sampleEnvironment dataAnchor.model)
      (System.start dataWorld (dataRequests.map (Request.program replicatingNode)))
      (List.replicate 10 0)).state = dataStored := by
    rw [dataStored]
  rcases dataStored_good with ⟨found, good⟩
  rcases peer_traffic_harmless_iff collisionFree_sampleDigest injective_toString dataAnchor nothing
    supported dataRequests (List.replicate 10 0) reached rfl found good with
    ⟨ciphertext, ⟨index, mesh, token, original, answer, listed, -, -⟩, exactly⟩
  have isByte : ciphertext.bytes = [7] := by
    cases index with
    | zero =>
        cases Option.some.inj listed
        rfl
    | succ index => cases listed
  have evaluated : ((authorize ⟨"ns-1"⟩ (sampleToken .get) .get).run
        (world sampleEnvironment dataAnchor.model) (dataStored.visited dataAnchor
          [.put "ns-1" "blob-5" 0 [9], .get "ns-1" "blob-5" 1])).1 = .ok ⟨"app-1"⟩ ∧
      (sampleManifest [.anchor]).shards.countP (fun shard =>
        dataAnchor.spoiled dataStored.anchor
          [.put "ns-1" "blob-5" 0 [9], .get "ns-1" "blob-5" 1]
          ⟨⟨"ns-1"⟩, ⟨"blob-5"⟩, shard.index⟩) ≤ 2 - 1 := by
    decide +kernel
  rcases evaluated with ⟨authorized, few⟩
  rw [visitedRestore, ← isByte]
  exact (exactly _ (sampleToken .get) ⟨"app-1"⟩ authorized).mpr few

/-- Both shards are replaced, one under the key of the blob and one under another, and the byte
is lost. -/
theorem peer_traffic_destroys_blob :
    (∀ shard ∈ (sampleManifest [.anchor]).shards, ∃ bytes,
      dataAnchor.getShard dataStored.anchor ⟨⟨"ns-1"⟩, ⟨"blob-5"⟩, shard.index⟩ = .ok bytes ∧
        replicatingNode.sha256Hex bytes = shard.sha256) ∧
    visitedRestore [] = .ok [7] ∧
    visitedRestore [.put "ns-1" "blob-5" 0 [9], .put "ns-1" "./blob-5" 1 [9]] =
      .error (.port (.unavailable "only 0 valid of 2 shards (need k=1)")) := by
  refine ⟨dataStored_good.2, ?_⟩
  decide +kernel

end VaultMesh
