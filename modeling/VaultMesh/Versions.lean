import VaultMesh.Sweeps

/-!
# The versions of an object

A prune finds the versions of its object in whatever order the store lists them
and sorts them by age. Of a store built by its own operations it finds every
tagged manifest exactly once. Which versions come first after sorting depends on
the listing only where creation times are equal.
-/

namespace VaultMesh

open Interaction Coding

namespace MemoryMetadataStore

theorem nodup_listBlobs (store : MemoryMetadataStore) (ns : NamespaceId) :
    (store.listBlobs ns).Nodup := by
  have keys := store.manifests.keys_nodup.filter fun key => decide (key.1 = ns)
  apply List.Nodup.map_on ?_ keys
  intro key inside other insideToo same
  have first := (List.mem_filter.mp inside).2
  have second := (List.mem_filter.mp insideToo).2
  simp only [decide_eq_true_eq] at first second
  exact Prod.ext (first.trans second.symm) same

theorem Keyed.without {state : World ShardMap} (keyed : state.store.Keyed) (ns : NamespaceId)
    (gone : List BlobId) : (state.without ns gone).store.Keyed := by
  intro id blobId manifest found
  rw [World.getManifest_without] at found
  split at found
  · cases found
  · exact keyed id blobId manifest found

end MemoryMetadataStore

namespace PruneVersions

variable {env : Environment} {state : World ShardMap} {ns : NamespaceId} {objectId : String}
  {retention : RetentionPolicy} {time : Timestamp}

/-! ## What a prune finds -/

/-- The manifest belongs to the group which is pruned. -/
def InGroup (store : MemoryMetadataStore) (ns : NamespaceId) (objectId : String)
    (version : Manifest) : Prop :=
  store.getManifest ns version.blobId = some version ∧ version.objectId = some objectId

theorem InGroup.eq_of_blobId {store : MemoryMetadataStore} {one other : Manifest}
    (inside : InGroup store ns objectId one) (insideToo : InGroup store ns objectId other)
    (same : one.blobId = other.blobId) : one = other := by
  apply Option.some.inj
  rw [← inside.1, ← insideToo.1, same]

theorem inGroup_without {gone : List BlobId} {version : Manifest} :
    InGroup (state.without ns gone).store ns objectId version ↔
      InGroup state.store ns objectId version ∧ version.blobId ∉ gone := by
  unfold InGroup
  rw [World.getManifest_without]
  by_cases removed : version.blobId ∈ gone
  · simp [removed]
  · simp [removed]

theorem map_blobId_tagged_sublist {store : MemoryMetadataStore} (keyed : store.Keyed)
    (ns : NamespaceId) (objectId : String) (blobs : List BlobId) :
    ((tagged objectId (blobs.map (store.getManifest ns))).map Manifest.blobId).Sublist blobs := by
  induction blobs with
  | nil => exact List.Sublist.refl _
  | cons blobId blobs ih =>
      rw [List.map_cons]
      cases found : store.getManifest ns blobId with
      | none =>
          rw [tagged_cons_none]
          exact ih.cons _
      | some manifest =>
          by_cases carries : manifest.objectId = some objectId
          · rw [tagged_cons_of_carries carries, List.map_cons, (keyed _ _ _ found).2]
            exact ih.cons_cons _
          · rw [tagged_cons_of_differs carries]
            exact ih.cons _

theorem mem_foundVersions (keyed : state.store.Keyed) {version : Manifest} :
    version ∈ foundVersions env state ns objectId ↔
      InGroup state.store ns objectId version := by
  have listed := env.blobOrder_perm (state.tick + 2) (state.store.listBlobs ns)
  constructor
  · intro present
    refine ⟨?_, carries_of_mem_tagged present⟩
    rcases List.mem_map.mp (mem_of_mem_tagged present) with ⟨blobId, -, found⟩
    rw [(keyed _ _ _ found).2]
    exact found
  · intro inside
    refine List.mem_filterMap.mpr ⟨some version, ?_, ?_⟩
    · refine List.mem_map.mpr ⟨version.blobId, listed.mem_iff.mpr ?_, inside.1⟩
      rw [MemoryMetadataStore.mem_listBlobs, inside.1]
      rfl
    · simp [Option.filter, inside.2]

theorem nodup_map_blobId_foundVersions (keyed : state.store.Keyed) :
    ((foundVersions env state ns objectId).map Manifest.blobId).Nodup := by
  have listed := env.blobOrder_perm (state.tick + 2) (state.store.listBlobs ns)
  apply (map_blobId_tagged_sublist keyed ns objectId _).nodup
  exact listed.nodup_iff.mpr (state.store.nodup_listBlobs ns)

/-! ## Sorting -/

theorem newestFirst_sorted (versions : List Manifest) :
    (newestFirst versions).Pairwise fun one other =>
      other.createdAt.millis ≤ one.createdAt.millis := by
  have total : Std.Total fun one other : Manifest =>
      other.createdAt.millis ≤ one.createdAt.millis :=
    ⟨fun one other => UInt64.le_total _ _⟩
  have trans : IsTrans Manifest fun one other => other.createdAt.millis ≤ one.createdAt.millis :=
    ⟨fun one other third before after => UInt64.le_trans after before⟩
  exact List.pairwise_insertionSort _ versions

/-- Sorting versions of different ages does not depend on the order in which they are given. -/
theorem newestFirst_eq_of_perm {versions sorted : List Manifest} (perm : versions.Perm sorted)
    (inOrder : sorted.Pairwise fun one other => other.createdAt.millis ≤ one.createdAt.millis)
    (ages : ∀ one ∈ versions, ∀ other ∈ versions, one.createdAt = other.createdAt →
      one = other) : newestFirst versions = sorted := by
  refine List.Perm.eq_of_pairwise ?_ (newestFirst_sorted versions) inOrder
    ((newestFirst_perm versions).trans perm)
  intro one other present presentToo before after
  apply ages one ((newestFirst_perm versions).mem_iff.mp present) other
    (perm.mem_iff.mpr presentToo)
  exact congrArg Timestamp.mk (UInt64.le_antisymm after before)

end PruneVersions

end VaultMesh
