import VaultMesh.ReedSolomon
import VaultMesh.World
import VaultMesh.Writes

/-!
# Reading a blob back

The facts about restoring which hold for every handler of the ports, however
its answers change from call to call.

`Manifest.Encodes` ties a manifest to the ciphertext it was made for, and
`PutBackup.execute` writes no other manifest (`PutBackup.execute_obeys`). On
the reading side every slot is the outcome of asking the recorded peers and
the anchor in turn (`SlotOutcome`): a filled slot holds bytes with the recorded
hash, and an empty one means that each place asked had no such copy at the
moment it was asked. With a collision-free hash the slots therefore mask the
word which was stored, and `reconstruct_run` computes the outcome of a restore
from the number of filled slots alone.
-/

namespace VaultMesh

open Interaction Coding

/-! ## Asking for a shard -/

section Reading

variable {σ : Type} (handler : Handler ports σ)

def copyAt (state : σ) (ref : ShardRef) :
    ShardLocation → PortResult Bytes
  | .anchor => (handler.answer state (.getShard ref)).1
  | .peer peer => (handler.answer state (.fetchShard peer ref)).1

def HasCopy (sha256Hex : Bytes → String) (state : σ) (ref : ShardRef) (shard : Shard)
    (location : ShardLocation) : Prop :=
  ∃ bytes, copyAt handler state ref location = .ok bytes ∧ sha256Hex bytes = shard.sha256

theorem fetchReplica_run (sha256Hex : Bytes → String) (ref : ShardRef) (shard : Shard)
    (locations : List ShardLocation) (state : σ) :
    ∃ slot, ((fetchReplica sha256Hex ref shard locations).run handler state).1 = .ok slot ∧
      (∀ bytes, slot = some bytes → sha256Hex bytes = shard.sha256 ∧
        ∃ moment ∈ (fetchReplica sha256Hex ref shard locations).visits handler state,
          ∃ peer, ShardLocation.peer peer ∈ locations ∧
            copyAt handler moment ref (.peer peer) = .ok bytes) ∧
      (slot = none → ∀ peer, ShardLocation.peer peer ∈ locations →
        ∃ moment ∈ (fetchReplica sha256Hex ref shard locations).visits handler state,
          ¬HasCopy handler sha256Hex moment ref shard (.peer peer)) := by
  induction locations generalizing state with
  | nil => exact ⟨none, rfl, by simp, by simp⟩
  | cons location locations ih =>
      cases location with
      | anchor =>
          rcases ih state with ⟨slot, ended, sound, complete⟩
          refine ⟨slot, ended, ?_, ?_⟩
          · intro bytes found
            rcases sound bytes found with ⟨hash, moment, visited, peer, listed, copy⟩
            exact ⟨hash, moment, visited, peer, List.mem_cons_of_mem _ listed, copy⟩
          · intro missing peer listed
            exact complete missing peer (by simpa using listed)
      | peer first =>
          -- Every branch asks `first` now, and all but one go on with the other peers.
          rcases ih (handler.answer state (.fetchShard first ref)).2 with
              ⟨slot, ended, sound, complete⟩
          have goOn : ¬HasCopy handler sha256Hex state ref shard (.peer first) →
              ∀ moments : List σ, (∀ moment ∈
                (fetchReplica sha256Hex ref shard locations).visits handler
                  (handler.answer state (.fetchShard first ref)).2, moment ∈ moments) →
              state ∈ moments →
              (∀ bytes, slot = some bytes → sha256Hex bytes = shard.sha256 ∧
                ∃ moment ∈ moments, ∃ peer,
                  ShardLocation.peer peer ∈ ShardLocation.peer first :: locations ∧
                    copyAt handler moment ref (.peer peer) = .ok bytes) ∧
              (slot = none → ∀ peer,
                ShardLocation.peer peer ∈ ShardLocation.peer first :: locations →
                  ∃ moment ∈ moments,
                    ¬HasCopy handler sha256Hex moment ref shard (.peer peer)) := by
            intro refused moments later now
            refine ⟨?_, ?_⟩
            · intro bytes found
              rcases sound bytes found with ⟨hash, moment, visited, peer, listed, copy⟩
              exact ⟨hash, moment, later moment visited, peer,
                List.mem_cons_of_mem _ listed, copy⟩
            · intro missing peer listed
              rcases List.mem_cons.mp listed with same | others
              · rcases ShardLocation.peer.inj same with rfl
                exact ⟨state, now, refused⟩
              · rcases complete missing peer others with ⟨moment, visited, no⟩
                exact ⟨moment, later moment visited, no⟩
          simp only [fetchReplica, fetchShard, Program.call_bind, Program.done_ok_bind,
            Program.run_call, Program.visits]
          cases answered : (handler.answer state (.fetchShard first ref)).1 with
          | error error =>
              refine ⟨slot, ended, ?_⟩
              apply goOn
              · rintro ⟨bytes, copy, -⟩
                simp [copyAt, answered] at copy
              · exact fun moment visited => List.mem_cons_of_mem _ visited
              · exact List.mem_cons_self
          | ok bytes =>
              by_cases hash : sha256Hex bytes = shard.sha256
              · simp only [hash, if_true]
                refine ⟨some bytes, rfl, ?_, by simp⟩
                intro value found
                rcases Option.some.inj found with rfl
                exact ⟨hash, state, by simp, first, by simp, answered⟩
              · simp only [hash, if_false]
                refine ⟨slot, ended, ?_⟩
                apply goOn
                · rintro ⟨value, copy, matching⟩
                  simp only [copyAt, answered, Except.ok.injEq] at copy
                  subst copy
                  exact hash matching
                · exact fun moment visited => List.mem_cons_of_mem _ visited
                · exact List.mem_cons_self

namespace GetBackup

/-- The places which a restore asks for a shard. -/
def Asks (self : GetBackup) (shard : Shard) : ShardLocation → Prop
  | .anchor => True
  | .peer peer => self.transport = true ∧ ShardLocation.peer peer ∈ shard.locations

/-- What a slot says about the places asked for it during `moments`. -/
structure SlotOutcome (reader : GetBackup) (ns : NamespaceId) (blobId : BlobId)
    (moments : List σ) (shard : Shard) (slot : Option Bytes) : Prop where
  sound : ∀ bytes, slot = some bytes → reader.sha256Hex bytes = shard.sha256 ∧
    ∃ moment ∈ moments, ∃ location, reader.Asks shard location ∧
      copyAt handler moment ⟨ns, blobId, shard.index⟩ location = .ok bytes
  complete : slot = none → ∀ location, reader.Asks shard location →
    ∃ moment ∈ moments,
      ¬HasCopy handler reader.sha256Hex moment ⟨ns, blobId, shard.index⟩ shard location

variable {handler} in
theorem SlotOutcome.mono {self : GetBackup} {ns : NamespaceId} {blobId : BlobId}
    {moments moments' : List σ} {shard : Shard} {slot : Option Bytes}
    (outcome : SlotOutcome handler self ns blobId moments shard slot)
    (subset : ∀ moment ∈ moments, moment ∈ moments') :
    SlotOutcome handler self ns blobId moments' shard slot := by
  constructor
  · intro bytes found
    rcases outcome.sound bytes found with ⟨hash, moment, visited, copy⟩
    exact ⟨hash, moment, subset moment visited, copy⟩
  · intro missing location asked
    rcases outcome.complete missing location asked with ⟨moment, visited, no⟩
    exact ⟨moment, subset moment visited, no⟩

theorem loadFromPeers_run (self : GetBackup) (ref : ShardRef) (shard : Shard) (state : σ) :
    ∃ slot, ((self.loadFromPeers ref shard).run handler state).1 = .ok slot ∧
      (∀ bytes, slot = some bytes → self.sha256Hex bytes = shard.sha256 ∧
        ∃ moment ∈ (self.loadFromPeers ref shard).visits handler state,
          ∃ location, self.Asks shard location ∧ copyAt handler moment ref location = .ok bytes) ∧
      (slot = none → ∀ peer, self.Asks shard (.peer peer) →
        ∃ moment ∈ (self.loadFromPeers ref shard).visits handler state,
          ¬HasCopy handler self.sha256Hex moment ref shard (.peer peer)) := by
  unfold loadFromPeers
  cases mesh : self.transport with
  | false =>
      refine ⟨none, rfl, by simp, ?_⟩
      rintro - peer ⟨enabled, -⟩
      simp [mesh] at enabled
  | true =>
      simp only [if_true]
      rcases fetchReplica_run handler self.sha256Hex ref shard shard.locations state with
          ⟨slot, ended, sound, complete⟩
      refine ⟨slot, ended, ?_, ?_⟩
      · intro bytes found
        rcases sound bytes found with ⟨hash, moment, visited, peer, listed, copy⟩
        exact ⟨hash, moment, visited, .peer peer, ⟨mesh, listed⟩, copy⟩
      · intro missing peer asked
        exact complete missing peer asked.2

theorem loadShard_run (self : GetBackup) (ns : NamespaceId) (blobId : BlobId) (shard : Shard)
    (state : σ) :
    ∃ slot last,
      (self.loadShard ⟨ns, blobId, shard.index⟩ shard).run handler state = (.ok slot, last) ∧
        SlotOutcome handler self ns blobId
          ((self.loadShard ⟨ns, blobId, shard.index⟩ shard).visits handler state) shard slot := by
  rcases loadFromPeers_run handler self ⟨ns, blobId, shard.index⟩ shard state with
      ⟨replica, ended, sound, complete⟩
  rcases reached : (self.loadFromPeers ⟨ns, blobId, shard.index⟩ shard).run handler state
    with ⟨result, state'⟩
  rw [reached] at ended
  simp only at ended
  subst ended
  rw [loadShard, Program.run_bind_of_ok reached, Program.visits_bind_of_ok reached]
  cases replica with
  | some bytes =>
      refine ⟨some bytes, state', rfl, ?_, by simp⟩
      intro value found
      rcases sound value found with ⟨hash, moment, visited, copy⟩
      exact ⟨hash, moment, List.mem_append_left _ visited, copy⟩
  | none =>
      simp only [loadFromAnchor, getShard, Program.call_bind, Program.done_ok_bind,
        Program.run_call, Program.visits]
      -- An invalid answer of the anchor leaves the slot empty.
      have empty : ∀ (moments : List σ), ¬HasCopy handler self.sha256Hex state'
          ⟨ns, blobId, shard.index⟩ shard .anchor →
          (∀ moment ∈ (self.loadFromPeers ⟨ns, blobId, shard.index⟩ shard).visits handler state,
            moment ∈ moments) → state' ∈ moments →
          SlotOutcome handler self ns blobId moments shard none := by
        intro moments refused earlier now
        refine ⟨by simp, ?_⟩
        intro _ location asked
        cases location with
        | anchor => exact ⟨state', now, refused⟩
        | peer peer =>
            rcases complete rfl peer asked with ⟨moment, visited, no⟩
            exact ⟨moment, earlier moment visited, no⟩
      cases answered : (handler.answer state' (.getShard ⟨ns, blobId, shard.index⟩)).1 with
      | error error =>
          refine ⟨none, _, rfl, ?_⟩
          apply empty
          · rintro ⟨bytes, copy, -⟩
            simp [copyAt, answered] at copy
          · exact fun moment visited => List.mem_append_left _ visited
          · simp
      | ok bytes =>
          by_cases hash : self.sha256Hex bytes = shard.sha256
          · simp only [hash, if_true]
            refine ⟨some bytes, _, rfl, ?_, by simp⟩
            intro value found
            rcases Option.some.inj found with rfl
            exact ⟨hash, state', by simp, .anchor, trivial, answered⟩
          · simp only [hash, if_false]
            refine ⟨none, _, rfl, ?_⟩
            apply empty
            · rintro ⟨value, copy, matching⟩
              simp only [copyAt, answered, Except.ok.injEq] at copy
              subst copy
              exact hash matching
            · exact fun moment visited => List.mem_append_left _ visited
            · simp

theorem collect_run (self : GetBackup) (ns : NamespaceId) (blobId : BlobId) (shards : List Shard)
    (state : σ) :
    ∃ slots last, (self.collect ns blobId shards).run handler state = (.ok slots, last) ∧
      List.Forall₂
        (SlotOutcome handler self ns blobId ((self.collect ns blobId shards).visits handler state))
        shards slots := by
  induction shards generalizing state with
  | nil => exact ⟨[], state, rfl, List.Forall₂.nil⟩
  | cons shard shards ih =>
      rcases loadShard_run handler self ns blobId shard state with ⟨slot, middle, loaded, here⟩
      rcases ih middle with ⟨slots, last, collected, others⟩
      refine ⟨slot :: slots, last, ?_, ?_⟩
      · rw [collect, Program.run_bind_of_ok loaded, Program.run_bind_of_ok collected]
        rfl
      · rw [collect, Program.visits_bind_of_ok loaded, Program.visits_bind_of_ok collected]
        refine List.Forall₂.cons (here.mono fun _ visited => List.mem_append_left _ visited) ?_
        refine others.imp fun other slot outcome => outcome.mono fun _ visited => ?_
        exact List.mem_append_right _ (List.mem_append_left _ visited)

end GetBackup

/-! ## The outcome of a restore -/

/-- The coder and the hash which the use-cases of a node share. -/
structure Node where
  library : ReedSolomonLibrary
  sha256Hex : Bytes → String

namespace Node

def put (node : Node) (mesh : Mesh) : PutBackup :=
  ⟨reedSolomonCoder node.library, node.sha256Hex, mesh⟩

def get (node : Node) (transport : Bool) : GetBackup :=
  ⟨reedSolomonCoder node.library, node.sha256Hex, transport⟩

def repair (node : Node) (transport : Bool) : RepairShards :=
  ⟨reedSolomonCoder node.library, node.sha256Hex, transport⟩

/-- The contract's parameters are valid and the library is fit for them. -/
def Supports (node : Node) (contract : AppContract) : Prop :=
  contract.erasure.Valid ∧ node.library.Fit contract.erasure

/-- The manifest was made by this node for this ciphertext, under parameters the library is fit
for. -/
structure Holds (node : Node) (manifest : Manifest) (ciphertext : Bytes) (word : List Bytes) :
    Prop where
  valid : manifest.erasure.Valid
  fit : node.library.Fit manifest.erasure
  encodes : manifest.Encodes (reedSolomonCoder node.library) node.sha256Hex ciphertext word

variable {node : Node} {manifest : Manifest} {ciphertext : Bytes} {word : List Bytes}

theorem Holds.named (holds : node.Holds manifest ciphertext word) (request : SetNameRequest) :
    node.Holds (manifest.named request) ciphertext word :=
  ⟨holds.valid, holds.fit, holds.encodes.named request⟩

theorem Holds.length_word (holds : node.Holds manifest ciphertext word) :
    word.length = manifest.erasure.n.toNat := by
  rcases ReedSolomonCoder.encode_ok manifest.erasure holds.valid holds.fit ciphertext with
      ⟨word', encoded, length, -⟩
  rcases (Except.ok.inj (holds.encodes.encoded.symm.trans encoded) : word = word') with rfl
  exact length

theorem Holds.length_shards (holds : node.Holds manifest ciphertext word) :
    manifest.shards.length = manifest.erasure.n.toNat := by
  rw [holds.encodes.records.length_eq, holds.length_word]

/-- Decoding `k` or more slots of the word returns the ciphertext. -/
theorem Holds.decode (holds : node.Holds manifest ciphertext word) {slots : List (Option Bytes)}
    (masks : Masks slots word) (enough : manifest.erasure.k.toNat ≤ filled slots) :
    (reedSolomonCoder node.library).decode slots manifest.erasure
      manifest.ciphertextLen.toNat = .ok ciphertext := by
  rw [holds.encodes.length]
  exact ReedSolomonCoder.decode_encoded holds.valid holds.fit holds.encodes.encoded masks enough

theorem decodeCollected_of_enough (holds : node.Holds manifest ciphertext word)
    (transport : Bool) {slots : List (Option Bytes)} (masks : Masks slots word)
    (enough : manifest.erasure.k.toNat ≤ filled slots) :
    (node.get transport).decodeCollected manifest slots =
      .ok ⟨ciphertext, manifest.shards.length, manifest.shards.length - filled slots⟩ := by
  simp only [GetBackup.decodeCollected, Manifest.isReconstructable, enough, decide_true, if_true]
  rw [get, holds.decode masks enough]
  rfl

theorem decodeCollected_of_few (node : Node) (transport : Bool) {slots : List (Option Bytes)}
    (few : filled slots < manifest.erasure.k.toNat) :
    ∃ message, (node.get transport).decodeCollected manifest slots =
      .error (.port (.unavailable message)) := by
  simp only [GetBackup.decodeCollected, Manifest.isReconstructable, Nat.not_le.mpr few,
    decide_false, Bool.false_eq_true, if_false]
  exact ⟨_, rfl⟩

/-- What is decoded is the ciphertext, and something is decoded exactly if enough slots are
filled. -/
theorem decodeCollected_ok_iff (holds : node.Holds manifest ciphertext word) (transport : Bool)
    {slots : List (Option Bytes)} (masks : Masks slots word) :
    ((∃ outcome, (node.get transport).decodeCollected manifest slots = .ok outcome) ↔
      manifest.erasure.k.toNat ≤ filled slots) ∧
    ∀ outcome, (node.get transport).decodeCollected manifest slots = .ok outcome →
      outcome.ciphertext = ciphertext := by
  by_cases enough : manifest.erasure.k.toNat ≤ filled slots
  · rw [decodeCollected_of_enough holds transport masks enough]
    refine ⟨⟨fun _ => enough, fun _ => ⟨_, rfl⟩⟩, ?_⟩
    rintro outcome ⟨⟩
    rfl
  · rcases decodeCollected_of_few node transport (Nat.lt_of_not_le enough) with ⟨message, failed⟩
    rw [failed]
    refine ⟨⟨?_, fun more => absurd more enough⟩, ?_⟩
    · rintro ⟨_, ⟨⟩⟩
    · rintro _ ⟨⟩

/-- A restore fills the slots of the word and ends as their number decides. -/
theorem reconstruct_run (collisionFree : CollisionFree node.sha256Hex)
    (encodes : manifest.Encodes (reedSolomonCoder node.library) node.sha256Hex ciphertext word)
    (transport : Bool) {ns : NamespaceId}
    {blobId : BlobId} {state : σ}
    (found : (handler.answer state (.getManifest ns blobId)).1 = .ok (some manifest)) :
    ∃ slots last,
      ((node.get transport).reconstruct ns blobId).run handler state =
          ((node.get transport).decodeCollected manifest slots, last) ∧
        Masks slots word ∧
        List.Forall₂
          (GetBackup.SlotOutcome handler (node.get transport) ns blobId
            (((node.get transport).reconstruct ns blobId).visits handler state))
          manifest.shards slots := by
  rcases GetBackup.collect_run handler (node.get transport) ns blobId manifest.shards
      (handler.answer state (.getManifest ns blobId)).2 with ⟨slots, last, collected, outcomes⟩
  have read : (VaultMesh.getManifest ns blobId).run handler state =
      (.ok (some manifest), (handler.answer state (.getManifest ns blobId)).2) := by
    simp only [VaultMesh.getManifest, Program.run_call, Program.run_done, found, question_ok]
  refine ⟨slots, last, ?_, ?_, ?_⟩
  · rw [GetBackup.reconstruct, Program.run_bind_of_ok read, okOr_some, pure_bind,
      Program.run_bind_of_ok collected, Program.run_done]
  · refine encodes.records.masks collisionFree (outcomes.imp ?_)
    intro shard slot outcome bytes filledWith
    exact (outcome.sound bytes filledWith).1
  · refine outcomes.imp fun shard slot outcome => outcome.mono fun moment visited => ?_
    rw [GetBackup.reconstruct, Program.visits_bind_of_ok read, okOr_some, pure_bind,
      Program.visits_bind_of_ok collected]
    exact List.mem_append_right _ (List.mem_append_left _ visited)

end Node

end Reading

/-! ## Reading from the anchor alone -/

namespace GetBackup

/-- What the anchor's answer contributes to a restore. -/
def anchorSlot (sha256Hex : Bytes → String) (shard : Shard) : PortResult Bytes → Option Bytes
  | .ok bytes => if sha256Hex bytes = shard.sha256 then some bytes else none
  | .error _ => none

theorem anchorSlot_eq_some_iff {sha256Hex : Bytes → String} {shard : Shard}
    {answer : PortResult Bytes} {bytes : Bytes} :
    anchorSlot sha256Hex shard answer = some bytes ↔
      answer = .ok bytes ∧ sha256Hex bytes = shard.sha256 := by
  cases answer with
  | error error => simp [anchorSlot]
  | ok found =>
      by_cases hash : sha256Hex found = shard.sha256
      · simp only [anchorSlot, hash, if_true, Option.some.injEq, Except.ok.injEq]
        constructor
        · rintro rfl
          exact ⟨rfl, hash⟩
        · exact And.left
      · simp only [anchorSlot, hash, if_false, reduceCtorEq, Except.ok.injEq, false_iff, not_and]
        rintro rfl
        exact hash

variable {A : Type} (env : Environment) (anchors : AnchorModel A) {reader : GetBackup}

theorem loadShard_alone (alone : reader.transport = false) (ref : ShardRef) (shard : Shard)
    (state : World A) :
    (reader.loadShard ref shard).run (world env anchors) state =
      (.ok (anchorSlot reader.sha256Hex shard (anchors.getShard state.anchor ref)),
        state.after anchors (.getShard ref)) := by
  have unreplicated : reader.loadFromPeers ref shard = pure none := by
    simp [loadFromPeers, alone]
  rw [loadShard, unreplicated, pure_bind, loadFromAnchor]
  simp only [VaultMesh.getShard, Program.call_bind, Program.done_ok_bind, Program.run_call,
    world_answer_fst, world_answer_snd, World.reply]
  cases anchors.getShard state.anchor ref with
  | error error => rfl
  | ok bytes =>
      simp only [anchorSlot]
      split <;> rfl

theorem collect_alone (alone : reader.transport = false) (ns : NamespaceId) (blobId : BlobId)
    (shards : List Shard) (state : World A) :
    ((reader.collect ns blobId shards).run (world env anchors) state).1 =
      .ok (shards.map fun shard => anchorSlot reader.sha256Hex shard
        (anchors.getShard state.anchor ⟨ns, blobId, shard.index⟩)) := by
  induction shards generalizing state with
  | nil => rfl
  | cons shard shards ih =>
      have later := ih (state.after anchors (.getShard ⟨ns, blobId, shard.index⟩))
      rw [collect, Program.run_bind_of_ok (loadShard_alone env anchors alone _ shard state),
        Program.run_bind_of_ok (Prod.ext later rfl)]
      rfl

/-- A restore from the anchor alone is decided by what the anchor holds. -/
theorem reconstruct_alone (alone : reader.transport = false) {ns : NamespaceId} {blobId : BlobId}
    {state : World A} {manifest : Manifest}
    (found : state.store.getManifest ns blobId = some manifest) :
    ((reader.reconstruct ns blobId).run (world env anchors) state).1 =
      reader.decodeCollected manifest (manifest.shards.map fun shard =>
        anchorSlot reader.sha256Hex shard
          (anchors.getShard state.anchor ⟨ns, blobId, shard.index⟩)) := by
  have read : (VaultMesh.getManifest ns blobId).run (world env anchors) state =
      (.ok (some manifest), state.after anchors (.getManifest ns blobId)) := by
    simp only [VaultMesh.getManifest, Program.run_call, Program.run_done, world_answer_fst,
      world_answer_snd, World.reply, found, question_ok]
  have collected := collect_alone env anchors alone ns blobId manifest.shards
    (state.after anchors (.getManifest ns blobId))
  rw [reconstruct, Program.run_bind_of_ok read, okOr_some, pure_bind,
    Program.run_bind_of_ok (Prod.ext collected rfl), Program.run_done]
  rfl

/-- A restore of a blob without a manifest comes to nothing. -/
theorem reconstruct_of_missing {ns : NamespaceId} {blobId : BlobId} {state : World A}
    (missing : state.store.getManifest ns blobId = none) :
    ((reader.reconstruct ns blobId).run (world env anchors) state).1 =
      .error (.port .notFound) := by
  rw [reconstruct, VaultMesh.getManifest, Program.run_bind, Program.run_call]
  simp only [world_answer_fst, World.reply, missing]
  rfl

/-- The manifest of a blob and its shards on the anchor are all that such a restore depends on. -/
theorem reconstruct_congr (alone : reader.transport = false) {ns : NamespaceId} {blobId : BlobId}
    {state other : World A}
    (sameManifest : other.store.getManifest ns blobId = state.store.getManifest ns blobId)
    (sameShards : ∀ index, anchors.getShard other.anchor ⟨ns, blobId, index⟩ =
      anchors.getShard state.anchor ⟨ns, blobId, index⟩) :
    ((reader.reconstruct ns blobId).run (world env anchors) other).1 =
      ((reader.reconstruct ns blobId).run (world env anchors) state).1 := by
  cases found : state.store.getManifest ns blobId with
  | none =>
      rw [reconstruct_of_missing env anchors (sameManifest.trans found),
        reconstruct_of_missing env anchors found]
  | some manifest =>
      rw [reconstruct_alone env anchors alone (sameManifest.trans found),
        reconstruct_alone env anchors alone found]
      simp only [sameShards]

end GetBackup

/-! ## A node with one data shard -/

/-- SHA-256 on the bytes 7 and 9, and an unambiguous text elsewhere. -/
def sampleDigest (bytes : Bytes) : String :=
  if bytes = [7] then
    "ca358758f6d27e6cf45272937977a748fd88391db679ceda7dc7bf1f005ee879"
  else if bytes = [9] then
    "2b4c342f5433ebe591a1da77e013d1b72475562d48578dca8b84bac6651c3cb9"
  else
    String.ofList ('x' :: bytes.map Char.ofUInt8)

theorem collisionFree_sampleDigest : CollisionFree sampleDigest := by
  have marked : ∀ (digest : String) (bytes : Bytes), digest.toList.head? ≠ some 'x' →
      digest ≠ String.ofList ('x' :: bytes.map Char.ofUInt8) := by
    rintro _ bytes unmarked rfl
    simp at unmarked
  have letters : Function.Injective Char.ofUInt8 := by
    intro left right same
    have codes : left.toUInt32 = right.toUInt32 := congrArg Char.val same
    have numbers := congrArg UInt32.toNat codes
    simp only [UInt8.toNat_toUInt32] at numbers
    exact UInt8.toNat_inj.mp numbers
  have seven := marked "ca358758f6d27e6cf45272937977a748fd88391db679ceda7dc7bf1f005ee879"
  have nine := marked "2b4c342f5433ebe591a1da77e013d1b72475562d48578dca8b84bac6651c3cb9"
  intro left right same
  unfold sampleDigest at same
  split_ifs at same
  · simp_all
  · exact absurd same (by decide)
  · exact absurd same (seven right (by decide))
  · exact absurd same (by decide)
  · simp_all
  · exact absurd same (nine right (by decide))
  · exact absurd same.symm (seven left (by decide))
  · exact absurd same.symm (nine left (by decide))
  · exact List.map_injective_iff.mpr letters (List.cons.inj (String.ofList_injective same)).2

/-- The node which replicates, so that every assumption about it can be checked. -/
def replicatingNode : Node :=
  ⟨replication, sampleDigest⟩

def sampleManifest (locations : List ShardLocation) : Manifest :=
  Manifest.new ⟨"blob-5"⟩ ⟨"ns-1"⟩ ⟨1, 2⟩
    [⟨0, sampleDigest [7], 1, locations⟩, ⟨1, sampleDigest [7], 1, locations⟩] 1 ⟨1000⟩

theorem replicatingNode_fit {params : ErasureParams} (single : params.k = 1) :
    replicatingNode.library.Fit params := by
  intro parity
  rw [single] at parity ⊢
  exact replication_systematicMDS (Nat.sub_pos_of_lt parity)

theorem replicatingNode_supports {quota : Quota} {retention : RetentionPolicy} {app : AppId}
    {contract : AppContract}
    (known : (sampleStore quota retention).getContract app = some contract) :
    replicatingNode.Supports contract := by
  rcases getContract_sampleStore known with rfl
  have valid : (⟨1, 2⟩ : ErasureParams).Valid := by decide
  exact ⟨valid, replicatingNode_fit rfl⟩

end VaultMesh
