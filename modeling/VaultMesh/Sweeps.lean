import VaultMesh.Retention
import VaultMesh.Faults

/-!
# Looking first, removing afterwards

Deletes and prunes have the same shape. They read until they know which blobs
have to go, and then they remove these blobs one by one, the shards before the
manifest. What they decide depends on the store, on the clock and on the order
in which the blobs are listed; what they leave behind depends on the first call
which fails.
-/

namespace VaultMesh

open Interaction Coding

/-! ## Removing blobs -/

/-- Remove the blobs one by one, as the loop of a prune does. -/
def removeEach (ns : NamespaceId) : List BlobId → UseCase Unit
  | [] => pure ()
  | blobId :: rest => do
      DeleteBackup.remove ns blobId
      removeEach ns rest

/-- The world without these blobs. -/
def World.without (state : World ShardMap) (ns : NamespaceId) : List BlobId → World ShardMap
  | [] => state
  | blobId :: rest =>
      ((state.after shardMap (.deleteBlob ns blobId)).after shardMap
        (.deleteManifest ns blobId)).without ns rest

namespace World

variable {state : World ShardMap} {ns : NamespaceId} {gone : List BlobId}

theorem without_append (state : World ShardMap) (ns : NamespaceId) (gone more : List BlobId) :
    state.without ns (gone ++ more) = (state.without ns gone).without ns more := by
  induction gone generalizing state with
  | nil => rfl
  | cons blobId gone ih => exact ih _

@[simp]
theorem signed_without : (state.without ns gone).signed = state.signed := by
  induction gone generalizing state with
  | nil => rfl
  | cons blobId gone ih => exact ih

@[simp]
theorem getContract_without (app : AppId) :
    (state.without ns gone).store.getContract app = state.store.getContract app := by
  induction gone generalizing state with
  | nil => rfl
  | cons blobId gone ih => exact ih

@[simp]
theorem getNamespace_without (id : NamespaceId) :
    (state.without ns gone).store.getNamespace id = state.store.getNamespace id := by
  induction gone generalizing state with
  | nil => rfl
  | cons blobId gone ih => exact ih

theorem getManifest_without (id : NamespaceId) (blobId : BlobId) :
    (state.without ns gone).store.getManifest id blobId =
      if id = ns ∧ blobId ∈ gone then none else state.store.getManifest id blobId := by
  induction gone generalizing state with
  | nil => simp [without]
  | cons first gone ih =>
      rw [without, ih]
      by_cases same : (id, blobId) = (ns, first)
      · rcases Prod.mk.inj same with ⟨rfl, rfl⟩
        have erased : ((state.after shardMap (.deleteBlob id blobId)).after shardMap
            (.deleteManifest id blobId)).store.getManifest id blobId = none :=
          MemoryMetadataStore.getManifest_deleteManifest_self _ _ _
        simp [erased]
      · have kept : ((state.after shardMap (.deleteBlob ns first)).after shardMap
            (.deleteManifest ns first)).store.getManifest id blobId =
              state.store.getManifest id blobId :=
          MemoryMetadataStore.getManifest_deleteManifest_of_ne _ same
        rw [kept]
        congr 1
        simp only [List.mem_cons, eq_iff_iff]
        grind

theorem anchor_without (ref : ShardRef) :
    (state.without ns gone).anchor ref =
      if ref.ns = ns ∧ ref.blobId ∈ gone then none else state.anchor ref := by
  induction gone generalizing state with
  | nil => simp [without]
  | cons first gone ih =>
      rw [without, ih]
      have erased : ((state.after shardMap (.deleteBlob ns first)).after shardMap
          (.deleteManifest ns first)).anchor ref =
            if ref.ns = ns ∧ ref.blobId = first then none else state.anchor ref := rfl
      rw [erased]
      simp only [List.mem_cons]
      grind

/-- What the store holds afterwards depends on what it held before only. -/
theorem store_without_congr {other : World ShardMap} (same : other.store = state.store) :
    (other.without ns gone).store = (state.without ns gone).store := by
  induction gone generalizing state other with
  | nil => exact same
  | cons blobId gone ih =>
      apply ih
      simp only [World.after, MemoryMetadataStore.after, same]

end World

section Removing

variable {env : Environment} {faults : Faults}
  {left : NamespaceId → BlobId → ShardMap → ShardMap} {ns : NamespaceId}

/-- Neither of the two deletions fails. -/
structure Faults.Removable (faults : Faults) (ns : NamespaceId) (blobId : BlobId) : Prop where
  shards : faults.Works (.deleteBlob ns blobId)
  manifest : faults.Works (.deleteManifest ns blobId)

/-- How the removal of the blobs is cut short. -/
inductive Cut (faults : Faults) (left : NamespaceId → BlobId → ShardMap → ShardMap)
    (ns : NamespaceId) (state : World ShardMap) (doomed : List BlobId) : World ShardMap → Prop where
  | shards {gone rest : List BlobId} {blobId : BlobId} (split : doomed = gone ++ blobId :: rest)
      (removable : ∀ earlier ∈ gone, faults.Removable ns earlier)
      (fails : ¬faults.Works (.deleteBlob ns blobId)) :
      Cut faults left ns state doomed
        ((state.without ns gone).afterFailure left (.deleteBlob ns blobId))
  | manifest {gone rest : List BlobId} {blobId : BlobId} (split : doomed = gone ++ blobId :: rest)
      (removable : ∀ earlier ∈ gone, faults.Removable ns earlier)
      (works : faults.Works (.deleteBlob ns blobId))
      (fails : ¬faults.Works (.deleteManifest ns blobId)) :
      Cut faults left ns state doomed
        (((state.without ns gone).after shardMap (.deleteBlob ns blobId)).ticked 1)

theorem Cut.cons {state last : World ShardMap} {blobId : BlobId} {rest : List BlobId}
    (removable : faults.Removable ns blobId)
    (cut : Cut faults left ns (state.without ns [blobId]) rest last) :
    Cut faults left ns state (blobId :: rest) last := by
  have earlier {gone : List BlobId} (others : ∀ earlier ∈ gone, faults.Removable ns earlier) :
      ∀ earlier ∈ blobId :: gone, faults.Removable ns earlier :=
    List.forall_mem_cons.mpr ⟨removable, others⟩
  cases cut with
  | @shards gone later next split others fails =>
      have whole : blobId :: rest = (blobId :: gone) ++ next :: later := by
        rw [split, List.cons_append]
      exact .shards whole (earlier others) fails
  | @manifest gone later next split others works fails =>
      have whole : blobId :: rest = (blobId :: gone) ++ next :: later := by
        rw [split, List.cons_append]
      exact .manifest whole (earlier others) works fails

variable (env faults left ns) in
/-- The blobs are all removed, or the removal is cut short. -/
theorem removeEach_run (doomed : List BlobId) (state : World ShardMap) :
    ((∀ blobId ∈ doomed, faults.Removable ns blobId) ∧
        (removeEach ns doomed).run (faultyWorld env shardMap faults left) state =
          (.ok (), state.without ns doomed)) ∨
      ∃ failure last, Cut faults left ns state doomed last ∧
        (removeEach ns doomed).run (faultyWorld env shardMap faults left) state =
          (.error failure, last) := by
  induction doomed generalizing state with
  | nil => exact Or.inl ⟨by simp, rfl⟩
  | cons blobId rest ih =>
      have first : blobId :: rest = [] ++ blobId :: rest := rfl
      rw [removeEach, DeleteBackup.remove, deleteBlob, bind_assoc]
      by_cases shards : faults.Works (.deleteBlob ns blobId)
      · rw [run_of_works _ question shards rfl, deleteManifest]
        by_cases manifest : faults.Works (.deleteManifest ns blobId)
        · rw [run_of_works _ question manifest rfl]
          rcases ih (state.without ns [blobId]) with ⟨removable, ran⟩ | ⟨failure, last, cut, ran⟩
          · refine Or.inl ⟨?_, ran⟩
            exact List.forall_mem_cons.mpr ⟨⟨shards, manifest⟩, removable⟩
          · exact Or.inr ⟨failure, last, cut.cons ⟨shards, manifest⟩, ran⟩
        · right
          rcases run_of_fails _ question (fun _ => rfl) manifest _ with ⟨failure, ran⟩
          exact ⟨failure, _, .manifest first (by simp) shards manifest, ran⟩
      · right
        rcases run_of_fails _ question (fun _ => rfl) shards _ with ⟨failure, ran⟩
        exact ⟨failure, _, .shards first (by simp) shards, ran⟩

/-- Without failures, the blobs are all removed. -/
theorem removeEach_run_unfailing (doomed : List BlobId) (state : World ShardMap) :
    (removeEach ns doomed).run (world env shardMap) state = (.ok (), state.without ns doomed) := by
  have ended := removeEach_run env .none (fun _ _ anchor => anchor) ns doomed state
  rw [faultyWorld_none] at ended
  rcases ended with ⟨-, ran⟩ | ⟨failure, last, cut, -⟩
  · exact ran
  · cases cut with
    | shards split before fails => exact absurd (Faults.works_none _) fails
    | manifest split before works fails => exact absurd (Faults.works_none _) fails

end Removing

/-! ## Choosing the versions to prune -/

namespace PruneVersions

variable {env : Environment} {faults : Faults}
  {left : NamespaceId → BlobId → ShardMap → ShardMap} {state last : World ShardMap}
  {ns : NamespaceId} {objectId : String}

def elapsedAt (retention : RetentionPolicy) (time : Timestamp) (version : Manifest) : Bool :=
  retention.holdElapsed version.createdAt time

/-- The versions after the first `keep` whose hold has elapsed. -/
def surplus (retention : RetentionPolicy) (time : Timestamp) (keep : ℕ)
    (sorted : List Manifest) : List Manifest :=
  (sorted.drop keep).filter (elapsedAt retention time)

/-- The versions after the first `keep` whose hold has not elapsed. -/
def heldBack (retention : RetentionPolicy) (time : Timestamp) (keep : ℕ)
    (sorted : List Manifest) : List Manifest :=
  (sorted.drop keep).filter fun version => !elapsedAt retention time version

/-- The walk over the sorted versions removes the surplus and counts. -/
theorem deleteOlder_eq (ns : NamespaceId) (retention : RetentionPolicy) (time : Timestamp)
    (keep index : ℕ) (versions : List Manifest) :
    deleteOlder ns retention time keep index versions =
      removeEach ns ((surplus retention time (keep - index) versions).map Manifest.blobId) >>=
        fun _ => pure (min (keep - index) versions.length,
          (surplus retention time (keep - index) versions).length,
          (heldBack retention time (keep - index) versions).length) := by
  induction versions generalizing index with
  | nil => simp [deleteOlder, surplus, heldBack, removeEach]
  | cons version versions ih =>
      rw [deleteOlder, ih]
      by_cases inside : index < keep
      · have step : keep - index = (keep - (index + 1)) + 1 := by omega
        rw [if_pos inside, step]
        simp only [surplus, heldBack, List.drop_succ_cons, List.length_cons, bind_assoc,
          pure_bind]
        congr 1
        funext _
        congr 2
        omega
      · have none : keep - index = 0 := by omega
        have noneLater : keep - (index + 1) = 0 := by omega
        rw [if_neg inside, none, noneLater]
        by_cases elapsed : retention.holdElapsed version.createdAt time = true
        · simp [surplus, heldBack, elapsedAt, elapsed, removeEach, DeleteBackup.remove]
        · simp [surplus, heldBack, elapsedAt, elapsed]

/-- Which blobs are removed, and what is reported in the end. -/
def judge (objectId : String) (retention : RetentionPolicy) (time : Timestamp)
    (versions : List Manifest) : List BlobId × PruneReport :=
  let keep := retention.keepVersions.toNat
  let sorted := newestFirst versions
  ((surplus retention time keep sorted).map Manifest.blobId,
    ⟨objectId, versions.length, min keep versions.length,
      (surplus retention time keep sorted).length, (heldBack retention time keep sorted).length⟩)

/-- The part of a prune which only reads. -/
def plan (ns : NamespaceId) (objectId : String) : UseCase (List BlobId × PruneReport) := do
  let found ← getNamespace ns
  let owned ← okOr found .notFound
  let known ← getContract owned.appId
  let contract ← okOr known .notFound
  let blobs ← listBlobs ns
  let versions ← collectVersions ns objectId blobs
  if contract.retention.keepVersions.toNat = 0 then
    pure ([], ⟨objectId, versions.length, versions.length, 0, 0⟩)
  else do
    let time ← now
    pure (judge objectId contract.retention time versions)

theorem sweep_eq (ns : NamespaceId) (objectId : String) (retention : RetentionPolicy)
    (versions : List Manifest) :
    sweep ns objectId retention versions =
      (if retention.keepVersions.toNat = 0 then
        pure ([], ⟨objectId, versions.length, versions.length, 0, 0⟩)
      else do
        let time ← now
        pure (judge objectId retention time versions) : UseCase (List BlobId × PruneReport)) >>=
      fun planned => removeEach ns planned.1 >>= fun _ => pure planned.2 := by
  by_cases unlimited : retention.keepVersions.toNat = 0
  · simp [sweep, unlimited, removeEach]
  · simp only [sweep, if_neg unlimited, deleteOlder_eq, bind_assoc, pure_bind, judge, Nat.sub_zero,
      (newestFirst_perm versions).length_eq]

theorem execute_eq (ns : NamespaceId) (objectId : String) :
    execute ns objectId =
      plan ns objectId >>= fun planned => removeEach ns planned.1 >>= fun _ => pure planned.2 := by
  simp only [execute, plan, bind_assoc, sweep_eq]

theorem plan_obeys (ns : NamespaceId) (objectId : String) :
    (plan ns objectId).Obeys (fun _ => ReadOnly) [] fun _ _ => True := by
  refine Program.Obeys.call_bind trivial (fun _ _ _ => trivial) ?_
  intro _ found _
  cases found with
  | none => exact trivial
  | some owned =>
      refine Program.Obeys.call_bind trivial (fun _ _ _ => trivial) ?_
      intro _ known _
      cases known with
      | none => exact trivial
      | some contract =>
          refine Program.Obeys.call_bind trivial (fun _ _ _ => trivial) ?_
          intro _ blobs _
          refine (collectVersions_obeys ns objectId blobs _).bind (fun _ _ _ => trivial) ?_
          intro _ versions _
          dsimp only
          split
          · exact trivial
          · exact Program.Obeys.call_bind trivial (fun _ _ _ => trivial) fun _ _ _ => trivial

theorem collectVersions_cons (ns : NamespaceId) (objectId : String) (blobId : BlobId)
    (blobs : List BlobId) :
    collectVersions ns objectId (blobId :: blobs) = (do
      let found ← getManifest ns blobId
      let versions ← collectVersions ns objectId blobs
      pure (tagged objectId [found] ++ versions)) := by
  rw [collectVersions]
  congr 1
  funext found
  congr 1
  funext versions
  cases found with
  | none => rfl
  | some manifest =>
      by_cases carries : manifest.objectId = some objectId
      · simp [tagged, Option.filter, carries]
      · simp [tagged, Option.filter, carries]

theorem tagged_cons (objectId : String) (found : Option Manifest)
    (others : List (Option Manifest)) :
    tagged objectId (found :: others) = tagged objectId [found] ++ tagged objectId others := by
  rw [tagged, tagged, tagged, ← List.filterMap_append, List.singleton_append]

theorem collectVersions_run_ok_iff {blobs : List BlobId} {versions : List Manifest} :
    (collectVersions ns objectId blobs).run (faultyWorld env shardMap faults left) state =
        (.ok versions, last) ↔
      (∀ blobId ∈ blobs, faults.Works (.getManifest ns blobId)) ∧
        tagged objectId (blobs.map (state.store.getManifest ns)) = versions ∧
        state.ticked blobs.length = last := by
  induction blobs generalizing state last versions with
  | nil => simp [collectVersions, tagged, World.ticked_zero]
  | cons blobId blobs ih =>
      rw [collectVersions_cons, getManifest_run_ok_iff, List.forall_mem_cons, List.map_cons,
        tagged_cons _ _ (blobs.map _)]
      constructor
      · rintro ⟨works, ended⟩
        rcases Program.run_bind_eq_ok ended with ⟨others, middle, collected, ended⟩
        rcases ih.mp collected with ⟨worksToo, rfl, rfl⟩
        rcases Prod.mk.inj ended with ⟨same, rfl⟩
        exact ⟨⟨works, worksToo⟩, Except.ok.inj same, by simp [Nat.add_comm]⟩
      · rintro ⟨⟨works, worksToo⟩, same, ticks⟩
        subst same ticks
        refine ⟨works, ?_⟩
        rw [Program.run_bind_of_ok (ih.mpr ⟨worksToo, rfl, rfl⟩)]
        simp [Nat.add_comm]

/-- The prune can read all it needs. -/
structure Inspects (faults : Faults) (state : World ShardMap) (ns : NamespaceId)
    (owned : Namespace) (contract : AppContract) : Prop where
  ownerWorks : faults.Works (.getNamespace ns)
  contractWorks : faults.Works (.getContract owned.appId)
  listingWorks : faults.Works (.listBlobs ns)
  readsWork : ∀ blobId ∈ state.store.listBlobs ns, faults.Works (.getManifest ns blobId)
  owner : state.store.getNamespace ns = some owned
  terms : state.store.getContract owned.appId = some contract

/-- The versions in the order in which a prune finds them. -/
def foundVersions (env : Environment) (state : World ShardMap) (ns : NamespaceId)
    (objectId : String) : List Manifest :=
  tagged objectId
    ((env.blobOrder (state.tick + 2) (state.store.listBlobs ns)).map (state.store.getManifest ns))

/-- What a prune decides if its clock reads `time`. -/
def verdict (retention : RetentionPolicy) (time : Timestamp) (objectId : String)
    (versions : List Manifest) : List BlobId × PruneReport :=
  if retention.keepVersions.toNat = 0 then
    ([], ⟨objectId, versions.length, versions.length, 0, 0⟩)
  else
    judge objectId retention time versions

/-- How many calls a prune makes before it starts to remove. -/
def reads (state : World ShardMap) (ns : NamespaceId) (retention : RetentionPolicy) : ℕ :=
  3 + (state.store.listBlobs ns).length + if retention.keepVersions.toNat = 0 then 0 else 1

theorem plan_run_ok_iff {planned : List BlobId × PruneReport} :
    (plan ns objectId).run (faultyWorld env shardMap faults left) state = (.ok planned, last) ↔
      ∃ owned contract, Inspects faults state ns owned contract ∧
        verdict contract.retention
          (env.clock (state.tick + (3 + (state.store.listBlobs ns).length))) objectId
          (foundVersions env state ns objectId) = planned ∧
        state.ticked (reads state ns contract.retention) = last := by
  have listed := env.blobOrder_perm (state.tick + 2) (state.store.listBlobs ns)
  unfold plan
  simp only [getNamespace_run_ok_iff, run_okOr_bind_ok_iff, getContract_run_ok_iff,
    listBlobs_run_ok_iff, World.ticked_ticked, World.store_ticked, World.tick_ticked]
  constructor
  · rintro ⟨ownerWorks, owned, owner, contractWorks, contract, terms, listingWorks, ended⟩
    rcases Program.run_bind_eq_ok ended with ⟨versions, middle, collected, ended⟩
    rcases collectVersions_run_ok_iff.mp collected with ⟨readsWork, rfl, rfl⟩
    refine ⟨owned, contract, ⟨ownerWorks, contractWorks, listingWorks, ?_, owner, terms⟩, ?_⟩
    · intro blobId present
      exact readsWork blobId (listed.mem_iff.mpr present)
    · by_cases unlimited : contract.retention.keepVersions.toNat = 0
      · rw [if_pos unlimited] at ended
        rcases Prod.mk.inj ended with ⟨same, rfl⟩
        rw [verdict, reads, if_pos unlimited, if_pos unlimited]
        exact ⟨Except.ok.inj same, by simp [listed.length_eq]⟩
      · rw [if_neg unlimited, now_run_ok_iff] at ended
        rcases Prod.mk.inj ended with ⟨same, rfl⟩
        rw [verdict, reads, if_neg unlimited, if_neg unlimited]
        refine ⟨?_, by simp [listed.length_eq, Nat.add_assoc]⟩
        rw [← Except.ok.inj same]
        simp [foundVersions, listed.length_eq]
  · rintro ⟨owned, contract, inspects, decided, ticks⟩
    subst decided ticks
    refine ⟨inspects.ownerWorks, owned, inspects.owner, inspects.contractWorks, contract,
      inspects.terms, inspects.listingWorks, ?_⟩
    have readsWork : ∀ blobId ∈ env.blobOrder (state.tick + 2) (state.store.listBlobs ns),
        faults.Works (.getManifest ns blobId) := by
      intro blobId present
      exact inspects.readsWork blobId (listed.mem_iff.mp present)
    rw [Program.run_bind_of_ok (collectVersions_run_ok_iff.mpr ⟨readsWork, rfl, rfl⟩)]
    by_cases unlimited : contract.retention.keepVersions.toNat = 0
    · rw [if_pos unlimited, verdict, reads, if_pos unlimited, if_pos unlimited]
      simp [listed.length_eq, foundVersions]
    · rw [if_neg unlimited, now_run_ok_iff, verdict, reads, if_neg unlimited, if_neg unlimited]
      simp [listed.length_eq, foundVersions, Nat.add_assoc]

end PruneVersions

/-! ## Admitting a delete -/

namespace DeleteBackup

variable {env : Environment} {faults : Faults}
  {left : NamespaceId → BlobId → ShardMap → ShardMap} {state : World ShardMap}
  {ns : NamespaceId} {token : CapabilityToken} {blobId : BlobId}

/-- The part of a delete which only reads. -/
def precheck (ns : NamespaceId) (token : CapabilityToken) (blobId : BlobId) : UseCase Unit := do
  let app ← authorize ns token .delete
  let known ← getContract app
  let contract ← okOr known .notFound
  if 0 < contract.retention.minDays then do
    let found ← getManifest ns blobId
    let manifest ← okOr found .notFound
    let time ← now
    if contract.retention.holdElapsed manifest.createdAt time then
      pure ()
    else
      Program.fail (.port (.domain (.retentionHold contract.retention.minDays)))
  else
    pure ()

theorem execute_eq (ns : NamespaceId) (token : CapabilityToken) (blobId : BlobId) :
    execute ns token blobId = precheck ns token blobId >>= fun _ => remove ns blobId := by
  simp only [execute, precheck, bind_assoc]
  congr 1
  funext app
  congr 1
  funext known
  congr 1
  funext contract
  split
  · simp only [bind_assoc]
    congr 1
    funext found
    congr 1
    funext manifest
    congr 1
    funext time
    split
    · rfl
    · rfl
  · rfl

theorem precheck_obeys (ns : NamespaceId) (token : CapabilityToken) (blobId : BlobId) :
    (precheck ns token blobId).Obeys (fun _ => ReadOnly) [] fun _ _ => True := by
  refine (authorize_obeys permits_readOnly.guard ns token .delete []).bind
    (fun _ _ _ => trivial) ?_
  intro _ app _
  refine Program.Obeys.call_bind trivial (fun _ _ _ => trivial) ?_
  intro _ known _
  cases known with
  | none => exact trivial
  | some contract =>
      dsimp only [okOr_some]
      rw [pure_bind]
      split
      · refine Program.Obeys.call_bind trivial (fun _ _ _ => trivial) ?_
        intro _ found _
        cases found with
        | none => exact trivial
        | some manifest =>
            refine Program.Obeys.call_bind trivial (fun _ _ _ => trivial) ?_
            intro _ time _
            dsimp only
            split <;> exact trivial
      · exact trivial

/-- A removal removes from the anchor what its blob has there, and no manifest of another blob. -/
theorem remove_run {A : Type} (env : Environment) (anchors : AnchorModel A) (state : World A)
    (ns : NamespaceId) (blobId : BlobId) :
    ((remove ns blobId).run (world env anchors) state).2.anchor =
        (anchors.deleteBlob state.anchor ns blobId).2 ∧
      (((remove ns blobId).run (world env anchors) state).1 = .ok () →
        (anchors.deleteBlob state.anchor ns blobId).1 = .ok ()) ∧
      ∀ ns' blobId', (ns', blobId') ≠ (ns, blobId) →
        ((remove ns blobId).run (world env anchors) state).2.store.getManifest ns' blobId' =
          state.store.getManifest ns' blobId' := by
  rw [remove, Program.run_bind, deleteBlob, Program.run_call]
  simp only [world_answer_fst, World.reply, world_answer_snd, Program.run_done]
  cases (anchors.deleteBlob state.anchor ns blobId).1 with
  | error error => exact ⟨rfl, (fun ended => by cases ended), fun _ _ _ => rfl⟩
  | ok passed =>
      refine ⟨rfl, fun _ => rfl, ?_⟩
      intro ns' blobId' other
      exact MemoryMetadataStore.getManifest_deleteManifest_of_ne _ other

/-- The blob is under no hold. -/
def Released (env : Environment) (faults : Faults) (state : World ShardMap) (ns : NamespaceId)
    (blobId : BlobId) (contract : AppContract) : Prop :=
  0 < contract.retention.minDays → faults.Works (.getManifest ns blobId) ∧
    ∃ manifest, state.store.getManifest ns blobId = some manifest ∧
      contract.retention.holdElapsed manifest.createdAt (env.clock (state.tick + 5)) = true

/-- The delete is let through up to its first removal. -/
structure Admits (env : Environment) (faults : Faults) (state : World ShardMap) (ns : NamespaceId)
    (token : CapabilityToken) (blobId : BlobId) (contract : AppContract) : Prop where
  cleared : Cleared env faults state ns token .delete
  contractWorks : faults.Works (.getContract token.claims.appId)
  known : state.store.getContract token.claims.appId = some contract
  released : Released env faults state ns blobId contract

theorem precheck_run_of_ok {last : World ShardMap}
    (ended : (precheck ns token blobId).run (faultyWorld env shardMap faults left) state =
      (.ok (), last)) :
    ∃ contract, Admits env faults state ns token blobId contract := by
  rcases Program.run_bind_eq_ok ended with ⟨app, middle, authorized, ended⟩
  rcases authorize_run_ok_iff.mp authorized with ⟨cleared, rfl, rfl⟩
  simp only [getContract_run_ok_iff, run_okOr_bind_ok_iff] at ended
  rcases ended with ⟨contractWorks, contract, known, ended⟩
  refine ⟨contract, cleared, contractWorks, known, ?_⟩
  intro holds
  rw [if_pos holds] at ended
  simp only [getManifest_run_ok_iff, run_okOr_bind_ok_iff, now_run_ok_iff] at ended
  rcases ended with ⟨readWorks, manifest, found, ended⟩
  refine ⟨readWorks, manifest, found, ?_⟩
  by_contra held
  rw [if_neg (by exact held)] at ended
  cases (Prod.mk.inj ended).1

theorem Admits.run {contract : AppContract}
    (admits : Admits env faults state ns token blobId contract) :
    ∃ ticks, (precheck ns token blobId).run (faultyWorld env shardMap faults left) state =
      (.ok (), state.ticked ticks) := by
  rw [precheck, Program.run_bind_of_ok (authorize_run_ok_iff.mpr ⟨admits.cleared, rfl, rfl⟩)]
  simp only [getContract_run_ok_iff, run_okOr_bind_ok_iff]
  by_cases holds : 0 < contract.retention.minDays
  · rcases admits.released holds with ⟨readWorks, manifest, found, elapsed⟩
    refine ⟨6, admits.contractWorks, contract, admits.known, ?_⟩
    rw [if_pos holds]
    simp only [getManifest_run_ok_iff, run_okOr_bind_ok_iff, now_run_ok_iff]
    refine ⟨readWorks, manifest, found, ?_⟩
    rw [if_pos (by exact elapsed)]
    simp
  · refine ⟨4, admits.contractWorks, contract, admits.known, ?_⟩
    rw [if_neg holds]
    simp

end DeleteBackup

/-! ## Deletes and prunes alike -/

/-- A delete of one blob, or a prune of the versions of one object. -/
inductive Sweep where
  | delete (token : CapabilityToken) (blobId : BlobId)
  | prune (objectId : String)

namespace Sweep

variable {env : Environment} {faults : Faults}
  {left : NamespaceId → BlobId → ShardMap → ShardMap} {state : World ShardMap}
  {ns : NamespaceId} {sweep : Sweep} {doomed : List BlobId}

def program (ns : NamespaceId) : Sweep → UseCase Unit
  | .delete token blobId => DeleteBackup.execute ns token blobId
  | .prune objectId => (PruneVersions.execute ns objectId).void

/-- The blobs to remove. -/
def examine (ns : NamespaceId) : Sweep → UseCase (List BlobId)
  | .delete token blobId => do
      DeleteBackup.precheck ns token blobId
      pure [blobId]
  | .prune objectId => do
      let planned ← PruneVersions.plan ns objectId
      pure planned.1

theorem program_eq (ns : NamespaceId) (sweep : Sweep) :
    sweep.program ns = sweep.examine ns >>= removeEach ns := by
  cases sweep with
  | delete token blobId =>
      have last : removeEach ns [blobId] = DeleteBackup.remove ns blobId := bind_pure _
      rw [program, examine, DeleteBackup.execute_eq, bind_assoc]
      simp only [pure_bind, last]
  | prune objectId =>
      have last (planned : List BlobId × PruneReport) :
          (removeEach ns planned.1 >>= fun _ => pure ()) = removeEach ns planned.1 := bind_pure _
      rw [program, examine, Program.void, PruneVersions.execute_eq]
      simp only [bind_assoc, pure_bind, last]

theorem examine_obeys (ns : NamespaceId) (sweep : Sweep) :
    (sweep.examine ns).Obeys (fun _ => ReadOnly) [] fun _ _ => True := by
  cases sweep with
  | delete token blobId =>
      exact (DeleteBackup.precheck_obeys ns token blobId).bind (fun _ _ _ => trivial)
        fun _ _ _ => trivial
  | prune objectId =>
      exact (PruneVersions.plan_obeys ns objectId).bind (fun _ _ _ => trivial)
        fun _ _ _ => trivial

/-- The sweep can read all it needs and decides to remove these blobs. -/
def Condemns (env : Environment) (faults : Faults) (state : World ShardMap) (ns : NamespaceId) :
    Sweep → List BlobId → Prop
  | .delete token blobId, doomed =>
      doomed = [blobId] ∧ ∃ contract, DeleteBackup.Admits env faults state ns token blobId contract
  | .prune objectId, doomed =>
      ∃ owned contract, PruneVersions.Inspects faults state ns owned contract ∧
        doomed = (PruneVersions.verdict contract.retention
          (env.clock (state.tick + (3 + (state.store.listBlobs ns).length))) objectId
          (PruneVersions.foundVersions env state ns objectId)).1

theorem Condemns.examine_run (condemns : Condemns env faults state ns sweep doomed) :
    ∃ ticks, (sweep.examine ns).run (faultyWorld env shardMap faults left) state =
      (.ok doomed, state.ticked ticks) := by
  cases sweep with
  | delete token blobId =>
      rcases condemns with ⟨rfl, contract, admits⟩
      rcases admits.run with ⟨ticks, ran⟩
      exact ⟨ticks, by rw [examine, Program.run_bind_of_ok ran, Program.run_pure]⟩
  | prune objectId =>
      rcases condemns with ⟨owned, contract, inspects, rfl⟩
      refine ⟨PruneVersions.reads state ns contract.retention, ?_⟩
      rw [examine, Program.run_bind_of_ok
        (PruneVersions.plan_run_ok_iff.mpr ⟨owned, contract, inspects, rfl, rfl⟩),
        Program.run_pure]

theorem condemns_of_examine {last : World ShardMap}
    (ran : (sweep.examine ns).run (faultyWorld env shardMap faults left) state =
      (.ok doomed, last)) :
    Condemns env faults state ns sweep doomed := by
  rcases sweep with ⟨token, blobId⟩ | ⟨objectId⟩
  · rcases Program.run_bind_eq_ok ran with ⟨_, middle, admitted, ended⟩
    refine ⟨?_, DeleteBackup.precheck_run_of_ok admitted⟩
    exact (Except.ok.inj (Prod.mk.inj ended).1).symm
  · rcases Program.run_bind_eq_ok ran with ⟨planned, middle, decided, ended⟩
    rcases PruneVersions.plan_run_ok_iff.mp decided with ⟨owned, contract, inspects, rfl, -⟩
    refine ⟨owned, contract, inspects, ?_⟩
    exact (Except.ok.inj (Prod.mk.inj ended).1).symm

/-- How a sweep can end. -/
inductive Ends (env : Environment) (faults : Faults)
    (left : NamespaceId → BlobId → ShardMap → ShardMap) (state : World ShardMap)
    (ns : NamespaceId) (sweep : Sweep) : Except Failure Unit × World ShardMap → Prop where
  | refused {failure : Failure} {ticks : ℕ}
      (spared : ∀ doomed, ¬Condemns env faults state ns sweep doomed) :
      Ends env faults left state ns sweep (.error failure, { state with tick := ticks })
  | cut {doomed : List BlobId} {failure : Failure} {ticks : ℕ} {last : World ShardMap}
      (condemns : Condemns env faults state ns sweep doomed)
      (cut : Cut faults left ns (state.ticked ticks) doomed last) :
      Ends env faults left state ns sweep (.error failure, last)
  | finished {doomed : List BlobId} {ticks : ℕ}
      (condemns : Condemns env faults state ns sweep doomed)
      (removable : ∀ blobId ∈ doomed, faults.Removable ns blobId) :
      Ends env faults left state ns sweep (.ok (), (state.ticked ticks).without ns doomed)

theorem program_ends (env : Environment) (faults : Faults)
    (left : NamespaceId → BlobId → ShardMap → ShardMap) (state : World ShardMap)
    (ns : NamespaceId) (sweep : Sweep) :
    Ends env faults left state ns sweep
      ((sweep.program ns).run (faultyWorld env shardMap faults left) state) := by
  rw [program_eq]
  rcases ran : (sweep.examine ns).run (faultyWorld env shardMap faults left) state with
    ⟨result, middle⟩
  cases result with
  | error failure =>
      rw [Program.run_bind_of_error ran]
      have reads : ∃ ticks, ((sweep.examine ns).run (faultyWorld env shardMap faults left)
          state).2 = { state with tick := ticks } :=
        readOnly_run_faulty (sweep.examine_obeys ns) state
      rcases reads with ⟨ticks, same⟩
      rw [ran] at same
      subst same
      refine .refused ?_
      intro doomed condemns
      rcases condemns.examine_run with ⟨ticks, went⟩
      cases ran.symm.trans went
  | ok doomed =>
      have condemns := condemns_of_examine ran
      have went : ∃ ticks, (sweep.examine ns).run (faultyWorld env shardMap faults left) state =
          (.ok doomed, state.ticked ticks) := condemns.examine_run
      rcases went with ⟨ticks, went⟩
      rw [Program.run_bind_of_ok went]
      rcases removeEach_run env faults left ns doomed (state.ticked ticks) with
        ⟨removable, removed⟩ | ⟨failure, last, cut, removed⟩
      · rw [removed]
        exact .finished condemns removable
      · rw [removed]
        exact .cut condemns cut

end Sweep

end VaultMesh
