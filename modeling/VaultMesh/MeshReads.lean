import VaultMesh.Restore

/-!
# Reading through the mesh

Peers can only help a restore. A slot which the anchor alone would fill is
filled with a mesh too, whatever the peers answer and however often they change
their answers: a peer's copy is taken only if it has the recorded hash, and
otherwise the anchor is asked as before. So a restore with a mesh fills at least
the slots of a restore without one, and every filled slot holds the symbol of
the word which was stored.
-/

namespace VaultMesh

open Interaction Coding

/-- A manifest which some put of `ciphertext` into `ns` wrote, whatever its ports answered. -/
def PutBackup.Produced (self : PutBackup) (ns : NamespaceId) (ciphertext : Slice)
    (manifest : Manifest) : Prop :=
  ∃ (σ : Type) (handler : Handler ports σ) (state : σ) (token : CapabilityToken)
    (answer : PortResult Unit),
    (⟨.putManifest manifest, answer⟩ : PortExchange) ∈
      (self.execute ns token ciphertext).transcript handler state

theorem PutBackup.Produced.encodes {self : PutBackup} {ns : NamespaceId} {ciphertext : Slice}
    {manifest : Manifest} (produced : self.Produced ns ciphertext manifest) :
    ∃ word, manifest.Encodes self.erasure self.sha256Hex ciphertext.bytes word := by
  rcases produced with ⟨σ, handler, state, token, answer, written⟩
  rcases (self.execute_obeys ns token ciphertext).permitted handler state written with
      ⟨_, permitted⟩
  exact permitted.1.encodes

namespace Node

variable {node : Node} {manifest : Manifest} {ciphertext : Bytes} {word : List Bytes}

/-- Whatever a restore decodes is the ciphertext which was stored. -/
theorem decodeCollected_eq_ok (fit : node.library.Fit manifest.erasure)
    (encodes : manifest.Encodes (reedSolomonCoder node.library) node.sha256Hex ciphertext word)
    {transport : Bool} {slots : List (Option Bytes)} (masks : Masks slots word)
    {outcome : RestoreOutcome}
    (decoded : (node.get transport).decodeCollected manifest slots = .ok outcome) :
    node.Holds manifest ciphertext word ∧ manifest.erasure.k.toNat ≤ filled slots ∧
      outcome = ⟨ciphertext, manifest.shards.length, manifest.shards.length - filled slots⟩ := by
  have enough : manifest.erasure.k.toNat ≤ filled slots := by
    by_contra few
    rcases decodeCollected_of_few node transport
      (Nat.lt_of_not_le few) with ⟨message, failed⟩
    rw [failed] at decoded
    cases decoded
  have valid : manifest.erasure.Valid := by
    cases result : (reedSolomonCoder node.library).decode slots manifest.erasure
        manifest.ciphertextLen.toNat with
    | ok out => exact ReedSolomonCoder.valid_of_decode encodes.encoded masks result
    | error failure =>
        simp only [GetBackup.decodeCollected, Manifest.isReconstructable, enough, decide_true,
          if_true, get, result] at decoded
        cases decoded
  have holds : node.Holds manifest ciphertext word := ⟨valid, fit, encodes⟩
  rw [decodeCollected_of_enough holds transport masks enough] at decoded
  exact ⟨holds, enough, (Except.ok.inj decoded).symm⟩

end Node

section Comparison

variable {A : Type} {anchors : AnchorModel A} {env : Environment}

theorem hasCopy_anchor_congr {sha256Hex : Bytes → String} {ref : ShardRef} {shard : Shard}
    {moment state : World A} (same : moment.anchor = state.anchor) :
    HasCopy (world env anchors) sha256Hex moment ref shard .anchor ↔
      HasCopy (world env anchors) sha256Hex state ref shard .anchor := by
  simp only [HasCopy, copyAt, world_answer_fst, World.reply, same]

/-- A restore with a mesh fills at least the slots which the anchor alone fills. -/
theorem filled_le_filled_mesh {node : Node} {ns : NamespaceId} {blobId : BlobId}
    {shards : List Shard} {state : World A} {plainMoments meshMoments : List (World A)}
    {plain meshed : List (Option Bytes)}
    (plainSame : ∀ moment ∈ plainMoments, moment.anchor = state.anchor)
    (meshSame : ∀ moment ∈ meshMoments, moment.anchor = state.anchor)
    (plainSlots : List.Forall₂ (GetBackup.SlotOutcome (world env anchors) (node.get false) ns blobId
      plainMoments) shards plain)
    (meshSlots : List.Forall₂ (GetBackup.SlotOutcome (world env anchors) (node.get true) ns blobId
      meshMoments) shards meshed) : filled plain ≤ filled meshed := by
  let good (shard : Shard) : Prop :=
    HasCopy (world env anchors) node.sha256Hex state ⟨ns, blobId, shard.index⟩ shard .anchor
  have anchored : AtLeast (filled plain) good shards := by
    refine atLeast_filled plainSlots fun shard bytes outcome => ?_
    rcases outcome.sound bytes rfl with ⟨hash, moment, visited, location, asked, copy⟩
    cases location with
    | anchor => exact (hasCopy_anchor_congr (plainSame moment visited)).mp ⟨bytes, copy, hash⟩
    | peer peer => exact absurd asked.1 (by simp [Node.get])
  refine le_filled_of_atLeast meshSlots (fun shard outcome present => ?_) anchored
  rcases outcome.complete rfl .anchor trivial with ⟨moment, visited, missing⟩
  exact missing ((hasCopy_anchor_congr (meshSame moment visited)).mpr present)

/--
The mesh is only an accelerator: what a restore without a mesh returns, a restore
with one returns too, with no more shards missing, and no mesh makes a restore
return anything but the stored ciphertext.
-/
theorem mesh_only_accelerates {node : Node} (collisionFree : CollisionFree node.sha256Hex)
    {mesh : Mesh} {ns : NamespaceId} {ciphertext : Slice} {manifest : Manifest}
    (produced : (node.put mesh).Produced ns ciphertext manifest)
    (fit : node.library.Fit manifest.erasure) (anchors : AnchorModel A) (env : Environment)
    (state : World A) (stored : state.store.getManifest ns manifest.blobId = some manifest)
    (token : CapabilityToken) :
    (∀ plain,
      (((node.get false).restore ns token manifest.blobId).run (world env anchors) state).1 =
        .ok plain →
      ∃ meshed,
        (((node.get true).restore ns token manifest.blobId).run (world env anchors) state).1 =
          .ok meshed ∧
        meshed.ciphertext = plain.ciphertext ∧ meshed.shardsMissing ≤ plain.shardsMissing) ∧
    (∀ meshed,
      (((node.get true).restore ns token manifest.blobId).run (world env anchors) state).1 =
        .ok meshed → meshed.ciphertext = ciphertext.bytes) := by
  rcases produced.encodes with ⟨word, encodes⟩
  rcases authorized : (authorize ns token .get).run (world env anchors) state with ⟨result, checked⟩
  have sameStore : checked.store = state.store := (authorize_run_unchanged authorized).1
  cases result with
  | error failure =>
      simp only [GetBackup.restore, Program.run_bind_of_error authorized]
      constructor <;> rintro _ ⟨⟩
  | ok app =>
      simp only [GetBackup.restore, Program.run_bind_of_ok authorized]
      have found : ((world env anchors).answer checked (.getManifest ns manifest.blobId)).1 =
          .ok (some manifest) := by
        simp only [world_answer_fst, World.reply, sameStore, stored]
      have unchanged : ∀ transport, ∀ moment ∈ ((node.get transport).reconstruct ns
          manifest.blobId).visits (world env anchors) checked, moment.anchor = checked.anchor :=
        fun transport moment visited => ((readOnly_run ((node.get transport).reconstruct_obeys
          permits_readOnly ns manifest.blobId []) env anchors checked).2 moment visited).2
      rcases Node.reconstruct_run (world env anchors) collisionFree encodes false found with
          ⟨plainSlots, plainLast, plainRun, plainMasks, plainOutcomes⟩
      rcases Node.reconstruct_run (world env anchors) collisionFree encodes true found with
          ⟨meshSlots, meshLast, meshRun, meshMasks, meshOutcomes⟩
      have more : filled plainSlots ≤ filled meshSlots :=
        filled_le_filled_mesh (unchanged false) (unchanged true) plainOutcomes meshOutcomes
      rw [plainRun, meshRun]
      constructor
      · intro plain decoded
        rcases Node.decodeCollected_eq_ok fit encodes plainMasks decoded with ⟨holds, enough, rfl⟩
        refine ⟨_, Node.decodeCollected_of_enough holds true meshMasks (enough.trans more), rfl, ?_⟩
        exact Nat.sub_le_sub_left more _
      · intro meshed decoded
        rcases Node.decodeCollected_eq_ok fit encodes meshMasks decoded with ⟨-, -, rfl⟩
        rfl

/-- Peers accept replicas, and later return a wrong byte for them. -/
def lyingEnvironment : Environment :=
  { sampleEnvironment with
    fetch := fun _ _ _ => .ok [9]
    send := fun _ _ _ _ => .ok () }

def lyingManifest : Manifest :=
  sampleManifest [.anchor, .peer "peer-1"]

/-- One of the two shards is left on the anchor, and the only peer lies about both. -/
def lyingWorld : World ShardMap where
  store := (sampleStore ⟨10, 10⟩ ⟨1, 0⟩).putManifest lyingManifest
  anchor ref := if ref = ⟨⟨"ns-1"⟩, ⟨"blob-5"⟩, 1⟩ then some [7] else none
  signed := []
  tick := 20

theorem lyingManifest_produced :
    (replicatingNode.put ⟨true, ["peer-1"], ⟨none, true⟩⟩).Produced ⟨"ns-1"⟩ (oneByte 7)
      lyingManifest := by
  refine ⟨World ShardMap, world lyingEnvironment shardMap,
    ⟨sampleStore ⟨10, 10⟩ ⟨1, 0⟩, fun _ => none, [], 0⟩, sampleToken .put, .ok (), ?_⟩
  exact List.mem_of_getElem? (i := 11) rfl

theorem mesh_only_accelerates_lyingWorld :
    (((replicatingNode.get false).restore ⟨"ns-1"⟩ (sampleToken .get) lyingManifest.blobId).run
      (world lyingEnvironment shardMap) lyingWorld).1 = .ok ⟨[7], 2, 1⟩ ∧
    ∃ meshed,
      (((replicatingNode.get true).restore ⟨"ns-1"⟩ (sampleToken .get) lyingManifest.blobId).run
        (world lyingEnvironment shardMap) lyingWorld).1 = .ok meshed ∧
      meshed.ciphertext = [7] := by
  have plain : (((replicatingNode.get false).restore ⟨"ns-1"⟩ (sampleToken .get)
      lyingManifest.blobId).run (world lyingEnvironment shardMap) lyingWorld).1 =
        .ok ⟨[7], 2, 1⟩ := by
    rfl
  rcases (mesh_only_accelerates collisionFree_sampleDigest lyingManifest_produced
    (replicatingNode_fit rfl) shardMap lyingEnvironment lyingWorld rfl (sampleToken .get)).1 _
      plain with ⟨meshed, restored, same, -⟩
  exact ⟨plain, meshed, restored, same⟩

end Comparison

end VaultMesh
