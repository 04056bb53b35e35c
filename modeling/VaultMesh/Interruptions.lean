import VaultMesh.Restore
import VaultMesh.Versions

/-!
# Deletes and prunes which are cut short

A sweep removes the shards of a blob before its manifest. If the manifest cannot
be deleted after the shards are gone, the blob is still listed but can no longer
be restored. No other failure harms a listed blob. Running the sweep again
finishes the work in every case: what is left to do is found in what is left of
the store.
-/

namespace VaultMesh

open Interaction Coding

namespace Sweep

variable {env : Environment} {faults : Faults}
  {left : NamespaceId → BlobId → ShardMap → ShardMap} {state : World ShardMap}
  {ns : NamespaceId} {sweep : Sweep} {doomed : List BlobId}

theorem Condemns.unique {other : List BlobId} (condemns : Condemns env faults state ns sweep doomed)
    (condemnsToo : Condemns env faults state ns sweep other) : doomed = other := by
  have first : ∃ ticks, (sweep.examine ns).run
      (faultyWorld env shardMap faults fun _ _ anchor => anchor) state =
        (.ok doomed, state.ticked ticks) := condemns.examine_run
  have second : ∃ ticks, (sweep.examine ns).run
      (faultyWorld env shardMap faults fun _ _ anchor => anchor) state =
        (.ok other, state.ticked ticks) := condemnsToo.examine_run
  rcases first with ⟨ticks, ran⟩
  rcases second with ⟨ticksToo, ranToo⟩
  exact Except.ok.inj (Prod.mk.inj (ran.symm.trans ranToo)).1

/-! ## Restoring what is listed -/

/-- The anchor alone is enough to restore the blob. -/
def Restorable (node : Node) (env : Environment) (ns : NamespaceId) (blobId : BlobId)
    (state : World ShardMap) : Prop :=
  ∃ outcome, (((node.get false).reconstruct ns blobId).run (world env shardMap) state).1 =
    .ok outcome

/-- Every blob which is listed can be restored. -/
def AllRestorable (node : Node) (env : Environment) (ns : NamespaceId)
    (state : World ShardMap) : Prop :=
  ∀ blobId ∈ state.store.listBlobs ns, Restorable node env ns blobId state

variable {node : Node} {blobId : BlobId}

theorem restorable_congr {other : World ShardMap}
    (sameManifest : other.store.getManifest ns blobId = state.store.getManifest ns blobId)
    (sameShards : ∀ index, other.anchor ⟨ns, blobId, index⟩ = state.anchor ⟨ns, blobId, index⟩)
    (restorable : Restorable node env ns blobId state) : Restorable node env ns blobId other := by
  rcases restorable with ⟨outcome, restored⟩
  refine ⟨outcome, ?_⟩
  rw [← restored]
  apply GetBackup.reconstruct_congr env shardMap rfl sameManifest
  intro index
  simp only [shardMap, ShardMap.read, sameShards]

/-- A blob without shards cannot be restored. -/
theorem not_restorable_of_erased (listed : blobId ∈ state.store.listBlobs ns)
    (erased : ∀ index, state.anchor ⟨ns, blobId, index⟩ = none) :
    ¬Restorable node env ns blobId state := by
  rw [MemoryMetadataStore.mem_listBlobs, Option.isSome_iff_exists] at listed
  rcases listed with ⟨manifest, found⟩
  rintro ⟨outcome, restored⟩
  rw [GetBackup.reconstruct_alone env shardMap rfl found] at restored
  simp only [shardMap, ShardMap.read, erased, GetBackup.anchorSlot] at restored
  have empty : (manifest.shards.map fun _ => (none : Option Bytes)).filterMap id = [] := by
    simp
  rcases ReedSolomonCoder.decode_empty empty manifest.ciphertextLen.toNat with ⟨failure, failed⟩
  rw [GetBackup.decodeCollected] at restored
  split at restored
  · change ((reedSolomonCoder node.library).decode _ _ _ >>= _) = _ at restored
    rw [show (reedSolomonCoder node.library).decode _ _ _ = _ from failed] at restored
    cases restored
  · cases restored

/-! ## The failure which strands a blob -/

/-- Removing these blobs comes to a listed one, removes its shards and cannot delete its
manifest. -/
def Strands (faults : Faults) (state : World ShardMap) (ns : NamespaceId)
    (doomed : List BlobId) : Prop :=
  ∃ gone blobId rest, doomed = gone ++ blobId :: rest ∧
    (∀ earlier ∈ gone, faults.Removable ns earlier) ∧ faults.Works (.deleteBlob ns blobId) ∧
    ¬faults.Works (.deleteManifest ns blobId) ∧
    blobId ∉ gone ∧ blobId ∈ state.store.listBlobs ns

theorem first_unique {α : Type} {fine : α → Prop} {gone gone' rest rest' : List α} {stop stop' : α}
    (same : gone ++ stop :: rest = gone' ++ stop' :: rest') (before : ∀ one ∈ gone, fine one)
    (before' : ∀ one ∈ gone', fine one) (stops : ¬fine stop) (stops' : ¬fine stop') :
    gone = gone' ∧ stop = stop' := by
  induction gone generalizing gone' with
  | nil =>
      cases gone' with
      | nil => exact ⟨rfl, (List.cons.inj same).1⟩
      | cons head tail =>
          rcases (List.cons.inj same).1 with rfl
          exact absurd (before' stop List.mem_cons_self) stops
  | cons head tail ih =>
      cases gone' with
      | nil =>
          rcases (List.cons.inj same).1 with rfl
          exact absurd (before head List.mem_cons_self) stops'
      | cons head' tail' =>
          rcases List.cons.inj same with ⟨rfl, sameTail⟩
          have beforeTail := (List.forall_mem_cons.mp before).2
          have beforeTail' := (List.forall_mem_cons.mp before').2
          rcases ih sameTail beforeTail beforeTail' with ⟨rfl, rfl⟩
          exact ⟨rfl, rfl⟩

/-- Where the removal stops decides whether a blob is stranded. -/
theorem strands_iff {gone rest : List BlobId}
    (before : ∀ earlier ∈ gone, faults.Removable ns earlier) (stops : ¬faults.Removable ns blobId) :
    Strands faults state ns (gone ++ blobId :: rest) ↔
      faults.Works (.deleteBlob ns blobId) ∧ blobId ∉ gone ∧
        blobId ∈ state.store.listBlobs ns := by
  constructor
  · rintro ⟨gone', blobId', rest', split, beforeToo, works, fails, notGone, listed⟩
    have stopsToo : ¬faults.Removable ns blobId' := fun removable => fails removable.manifest
    rcases first_unique split before beforeToo stops stopsToo with ⟨rfl, rfl⟩
    exact ⟨works, notGone, listed⟩
  · rintro ⟨works, notGone, listed⟩
    refine ⟨gone, blobId, rest, rfl, before, works, ?_, notGone, listed⟩
    exact fun worksToo => stops ⟨works, worksToo⟩

theorem allRestorable_without (restorable : AllRestorable node env ns state) (gone : List BlobId)
    {last : World ShardMap} (sameStore : last.store = (state.without ns gone).store)
    (sameShards : ∀ blobId ∈ last.store.listBlobs ns, ∀ index,
      last.anchor ⟨ns, blobId, index⟩ = (state.without ns gone).anchor ⟨ns, blobId, index⟩) :
    AllRestorable node env ns last := by
  intro blobId listed
  have found := listed
  rw [MemoryMetadataStore.mem_listBlobs, sameStore, World.getManifest_without] at found
  by_cases removed : blobId ∈ gone
  · simp [removed] at found
  · have kept : last.store.getManifest ns blobId = state.store.getManifest ns blobId := by
      rw [sameStore, World.getManifest_without, if_neg (by simp [removed])]
    refine restorable_congr kept ?_ (restorable blobId ?_)
    · intro index
      rw [sameShards blobId listed, World.anchor_without, if_neg (by simp [removed])]
    · rw [MemoryMetadataStore.mem_listBlobs]
      simpa [removed] using found

theorem mem_listBlobs_without {gone : List BlobId} :
    blobId ∈ (state.without ns gone).store.listBlobs ns ↔
      blobId ∉ gone ∧ blobId ∈ state.store.listBlobs ns := by
  rw [MemoryMetadataStore.mem_listBlobs, World.getManifest_without,
    MemoryMetadataStore.mem_listBlobs]
  by_cases removed : blobId ∈ gone
  · simp [removed]
  · simp [removed]

theorem allRestorable_of_cut_iff (restorable : AllRestorable node env ns state)
    {last : World ShardMap} (cut : Cut faults (fun _ _ anchor => anchor) ns state doomed last) :
    AllRestorable node env ns last ↔ ¬Strands faults state ns doomed := by
  cases cut with
  | @shards gone rest blobId split before fails =>
      rw [split, strands_iff before fun removable => fails removable.shards]
      refine iff_of_true ?_ fun stranded => fails stranded.1
      exact allRestorable_without restorable gone rfl fun _ _ _ => rfl
  | @manifest gone rest blobId split before works fails =>
      rw [split, strands_iff before fun removable => fails removable.manifest]
      by_cases stranded : blobId ∉ gone ∧ blobId ∈ state.store.listBlobs ns
      · refine iff_of_false ?_ fun harmless => harmless ⟨works, stranded⟩
        intro allRestorable
        have here := mem_listBlobs_without.mpr stranded
        refine absurd (allRestorable blobId here) (not_restorable_of_erased here ?_)
        intro index
        simp [World.ticked, World.after, AnchorModel.after, shardMap, ShardMap.erase]
      · refine iff_of_true ?_ fun impossible => stranded impossible.2
        refine allRestorable_without restorable gone rfl ?_
        intro other present index
        have different : other ≠ blobId := by
          intro same
          subst same
          exact stranded (mem_listBlobs_without.mp present)
        simp [World.ticked, World.after, AnchorModel.after, shardMap, ShardMap.erase, different]

/--
Every blob which is still listed after a failed sweep can be restored, unless
the manifest of a listed blob could not be deleted after its shards were gone.
-/
theorem failed_sweep_leaves_restorable_iff (node : Node) (env : Environment) (faults : Faults)
    (state : World ShardMap) (ns : NamespaceId) (sweep : Sweep)
    (restorable : AllRestorable node env ns state) :
    (∀ failure last, (sweep.program ns).run
        (faultyWorld env shardMap faults fun _ _ anchor => anchor) state = (.error failure, last) →
        AllRestorable node env ns last) ↔
      ∀ doomed, Condemns env faults state ns sweep doomed → ¬Strands faults state ns doomed := by
  have ends := program_ends env faults (fun _ _ anchor => anchor) state ns sweep
  generalize (sweep.program ns).run (faultyWorld env shardMap faults fun _ _ anchor => anchor)
    state = ended at ends
  cases ends with
  | refused spared =>
      refine iff_of_true ?_ fun doomed condemns => absurd condemns (spared doomed)
      intro failure last same
      rcases Prod.mk.inj same with ⟨-, rfl⟩
      exact allRestorable_without restorable [] rfl fun _ _ _ => rfl
  | finished condemns removable =>
      refine iff_of_true ?_ ?_
      · intro failure last same
        cases (Prod.mk.inj same).1
      · rintro other condemnsToo ⟨gone, blobId, rest, split, _, _, fails, _⟩
        rcases condemns.unique condemnsToo with rfl
        exact fails (removable blobId (by simp [split])).manifest
  | @cut doomed failure ticks last condemns cut =>
      have before : AllRestorable node env ns (state.ticked ticks) :=
        allRestorable_without restorable [] rfl fun _ _ _ => rfl
      have decided := allRestorable_of_cut_iff before cut
      constructor
      · intro restored other condemnsToo
        rcases condemns.unique condemnsToo with rfl
        exact decided.mp (restored failure last rfl)
      · intro spared failure last same
        rcases Prod.mk.inj same with ⟨-, rfl⟩
        exact decided.mpr (spared doomed condemns)

/-- One blob of two shards, and no hold. -/
def oneBlob : World ShardMap where
  store := (sampleStore ⟨10, 10⟩ ⟨1, 0⟩).putManifest (sampleManifest [.anchor])
  anchor ref := if ref.ns = ⟨"ns-1"⟩ ∧ ref.blobId = ⟨"blob-5"⟩ then some [7] else none
  signed := []
  tick := 0

def sampleDelete : Sweep :=
  .delete (sampleToken .delete) ⟨"blob-5"⟩

/-- Only this call fails. -/
def onlyFault (fault : PortCall) : Faults :=
  ⟨fun _ _ => none, fun call => if call = fault then some (.unavailable "down") else none⟩

theorem allRestorable_oneBlob :
    AllRestorable replicatingNode sampleEnvironment ⟨"ns-1"⟩ oneBlob := by
  intro blobId listed
  have only : oneBlob.store.listBlobs ⟨"ns-1"⟩ = [⟨"blob-5"⟩] := rfl
  rw [only, List.mem_singleton] at listed
  subst listed
  exact ⟨⟨[7], 2, 0⟩, by decide +kernel⟩

/-- A deletion which fails before the shards are gone. -/
theorem failed_sweep_leaves_restorable_undeleted :
    ∃ failure last, (sampleDelete.program ⟨"ns-1"⟩).run (faultyWorld sampleEnvironment shardMap
        (onlyFault (.deleteBlob ⟨"ns-1"⟩ ⟨"blob-5"⟩)) fun _ _ anchor => anchor) oneBlob =
          (.error failure, last) ∧
      AllRestorable replicatingNode sampleEnvironment ⟨"ns-1"⟩ last := by
  refine ⟨.port (.unavailable "down"), _, rfl, ?_⟩
  refine (failed_sweep_leaves_restorable_iff replicatingNode sampleEnvironment
    (onlyFault (.deleteBlob ⟨"ns-1"⟩ ⟨"blob-5"⟩)) oneBlob ⟨"ns-1"⟩ sampleDelete
    allRestorable_oneBlob).mpr ?_ _ _ rfl
  rintro doomed ⟨isBlob, _⟩ ⟨gone, blobId, rest, split, _, works, _⟩
  have here : blobId ∈ [(⟨"blob-5"⟩ : BlobId)] := by
    rw [← isBlob, split]
    simp
  rcases List.mem_singleton.mp here with rfl
  exact absurd works (by decide +kernel)

/-- The shards are gone, and the manifest is still there. -/
theorem failed_delete_strands_blob :
    AllRestorable replicatingNode sampleEnvironment ⟨"ns-1"⟩ oneBlob ∧
      ∃ failure last, (sampleDelete.program ⟨"ns-1"⟩).run (faultyWorld sampleEnvironment shardMap
          (onlyFault (.deleteManifest ⟨"ns-1"⟩ ⟨"blob-5"⟩)) fun _ _ anchor => anchor) oneBlob =
            (.error failure, last) ∧
        ¬AllRestorable replicatingNode sampleEnvironment ⟨"ns-1"⟩ last := by
  refine ⟨allRestorable_oneBlob, .port (.unavailable "down"), _, rfl, ?_⟩
  intro restorable
  refine not_restorable_of_erased ?_ ?_ (restorable ⟨"blob-5"⟩ ?_)
  · decide +kernel
  · intro index
    rfl
  · decide +kernel

end Sweep

end VaultMesh
