import VaultMesh.AnchorRefinement
import VaultMesh.Confinement
import VaultMesh.Files.Objects
import VaultMesh.ShardAddresses
import VaultMesh.Sweeps

/-!
# The anchor in an object store

`RustFsBlobAnchor` keeps a shard under the key made of its address. To delete a
blob it lists the keys which begin with the address of the blob and deletes one
object after another. An address is cut into parts, so an id with a slash, or
without any part, is the beginning of other addresses than its own.
-/

namespace VaultMesh

open Interaction Files

structure RustFsBlobAnchor where
  service : ObjectService

namespace RustFsBlobAnchor

def backend (reason : String) : PortError :=
  .backend ("rustfs/s3: " ++ reason)

def shardKey (self : RustFsBlobAnchor) (ref : ShardRef) : ObjectKey :=
  self.service.key ref.objectKey

def blobFront (self : RustFsBlobAnchor) (ns : NamespaceId) (blobId : BlobId) : ObjectKey :=
  self.service.key (ns.value ++ "/" ++ blobId.value)

/-- Delete what the listing names, until the listing or a deletion fails. -/
def deleteEach (self : RustFsBlobAnchor) : List ObjectKey → Bucket → PortResult Unit × Bucket
  | [], bucket => (.ok (), bucket)
  | key :: keys, bucket =>
      match self.service.refusal (.next key) with
      | some reason => (.error (backend reason), bucket)
      | none =>
          match self.service.delete bucket key with
          | (.error reason, bucket) => (.error (backend reason), bucket)
          | (.ok (), bucket) => deleteEach self keys bucket

/-- `delete_prefix`. -/
def deleteBelow (self : RustFsBlobAnchor) (bucket : Bucket) (front : ObjectKey) :
    PortResult Unit × Bucket :=
  match self.service.refusal (.list front) with
  | some reason => (.error (backend reason), bucket)
  | none => self.deleteEach (self.service.listed bucket front) bucket

def putShard (self : RustFsBlobAnchor) (bucket : Bucket) (ref : ShardRef) (bytes : Bytes) :
    PortResult Unit × Bucket :=
  match self.service.put bucket (self.shardKey ref) bytes with
  | (.error reason, bucket) => (.error (backend reason), bucket)
  | (.ok (), bucket) => (.ok (), bucket)

def getShard (self : RustFsBlobAnchor) (bucket : Bucket) (ref : ShardRef) : PortResult Bytes :=
  match self.service.get bucket (self.shardKey ref) with
  | .ok bytes => .ok bytes
  | .error .notFound => .error .notFound
  | .error (.refused reason) => .error (backend reason)

def deleteBlob (self : RustFsBlobAnchor) (bucket : Bucket) (ns : NamespaceId) (blobId : BlobId) :
    PortResult Unit × Bucket :=
  self.deleteBelow bucket (self.blobFront ns blobId)

def model (self : RustFsBlobAnchor) : AnchorModel Bucket where
  putShard := self.putShard
  getShard := self.getShard
  deleteBlob := self.deleteBlob

variable {self : RustFsBlobAnchor} {bucket : Bucket} {ns : NamespaceId} {blobId : BlobId}
  {ref : ShardRef}

/-! ## Keys of shards -/

/-- The address of a blob, cut into parts. -/
def address (ns : NamespaceId) (blobId : BlobId) : List String :=
  parts ns.value ++ parts blobId.value

theorem parts_objectKey (ref : ShardRef) :
    parts ref.objectKey = address ref.ns ref.blobId ++ [FsBlobAnchor.shardName ref.index] := by
  have isPart : IsPart (FsBlobAnchor.shardName ref.index) :=
    ⟨FsBlobAnchor.slashFree_shardName _, fun empty =>
      (FsBlobAnchor.shardName_moves ref.index).1 (Or.inl empty)⟩
  rw [parts, FsBlobAnchor.split_objectKey, List.filter_append, List.filter_append, address, parts,
    parts]
  simp [isPart.nonempty]

theorem shardKey_eq (self : RustFsBlobAnchor) (ref : ShardRef) :
    self.shardKey ref =
      (address ref.ns ref.blobId ++ [FsBlobAnchor.shardName ref.index]).map
        self.service.encodePart := by
  rw [shardKey, ObjectService.key, parts_objectKey]

theorem blobFront_eq (self : RustFsBlobAnchor) (ns : NamespaceId) (blobId : BlobId) :
    self.blobFront ns blobId = (address ns blobId).map self.service.encodePart := by
  rw [blobFront, ObjectService.key, parts_append_slash, address]

theorem shardKey_inj {other : ShardRef} : self.shardKey ref = self.shardKey other ↔
    address ref.ns ref.blobId = address other.ns other.blobId ∧ ref.index = other.index := by
  rw [shardKey_eq, shardKey_eq, ObjectService.map_encodePart_inj]
  constructor
  · intro same
    rcases List.append_inj' same (by simp) with ⟨sameAddress, sameName⟩
    exact ⟨sameAddress, FsBlobAnchor.shardName_injective (List.singleton_inj.mp sameName)⟩
  · rintro ⟨sameAddress, sameIndex⟩
    rw [sameAddress, sameIndex]

/-- A shard lies below the address of a blob if its own address goes on from there. -/
theorem front_of_shardKey : (self.blobFront ns blobId <+: self.shardKey ref ∧
    self.blobFront ns blobId ≠ self.shardKey ref) ↔
      address ns blobId <+: address ref.ns ref.blobId := by
  rw [blobFront_eq, shardKey_eq, ObjectService.map_encodePart_isPrefix, ne_eq,
    ObjectService.map_encodePart_inj, List.prefix_concat_iff]
  constructor
  · rintro ⟨whole | inside, other⟩
    · exact absurd whole other
    · exact inside
  · intro inside
    refine ⟨Or.inr inside, ?_⟩
    intro same
    have lengths := inside.length_le
    rw [same, List.length_append, List.length_singleton] at lengths
    omega

/-! ## What a willing service does -/

theorem putShard_of_willing (willing : self.service.Willing) (bytes : Bytes) :
    self.putShard bucket ref bytes = (.ok (), bucket.insert (self.shardKey ref) bytes) := by
  rw [putShard, ObjectService.put, willing]

theorem getShard_of_willing (willing : self.service.Willing) :
    self.getShard bucket ref =
      match bucket.lookup (self.shardKey ref) with
      | some bytes => .ok bytes
      | none => .error .notFound := by
  rw [getShard, ObjectService.get, willing]
  cases bucket.lookup (self.shardKey ref) <;> rfl

/-- A deletion goes through the keys in order and stops at the first which fails. -/
theorem deleteEach_run (self : RustFsBlobAnchor) (keys : List ObjectKey) (bucket : Bucket) :
    ∃ gone, gone <+: keys ∧
      (∀ key, (self.deleteEach keys bucket).2.lookup key =
        if key ∈ gone then none else bucket.lookup key) ∧
      ((self.deleteEach keys bucket).1 = .ok () → gone = keys) := by
  induction keys generalizing bucket with
  | nil => exact ⟨[], List.prefix_refl _, by simp [deleteEach], fun _ => rfl⟩
  | cons first keys ih =>
      rw [deleteEach]
      cases self.service.refusal (.next first) with
      | some reason => exact ⟨[], List.nil_prefix, by simp, by simp⟩
      | none =>
          rw [ObjectService.delete]
          cases self.service.refusal (.delete first) with
          | some reason => exact ⟨[], List.nil_prefix, by simp, by simp⟩
          | none =>
              rcases ih (bucket.erase first) with ⟨gone, front, found, whole⟩
              refine ⟨first :: gone, List.cons_prefix_cons.mpr ⟨rfl, front⟩, ?_, ?_⟩
              · intro key
                refine (found key).trans ?_
                by_cases here : key = first
                · subst here
                  simp
                · simp [here]
              · intro ended
                rw [whole ended]

/-- What a delete removes lies below the address of the blob, and is all of it if it succeeds. -/
theorem deleteBlob_run (self : RustFsBlobAnchor) (bucket : Bucket) (ns : NamespaceId)
    (blobId : BlobId) (ref : ShardRef) :
    (¬address ns blobId <+: address ref.ns ref.blobId →
      (self.deleteBlob bucket ns blobId).2.lookup (self.shardKey ref) =
        bucket.lookup (self.shardKey ref)) ∧
    (address ns blobId <+: address ref.ns ref.blobId →
      (self.deleteBlob bucket ns blobId).1 = .ok () →
      (self.deleteBlob bucket ns blobId).2.lookup (self.shardKey ref) = none) := by
  have named : self.shardKey ref ∈ self.service.listed bucket (self.blobFront ns blobId) ↔
      self.shardKey ref ∈ bucket ∧ address ns blobId <+: address ref.ns ref.blobId := by
    rw [ObjectService.mem_listed, front_of_shardKey]
  rw [deleteBlob, deleteBelow]
  cases self.service.refusal (.list (self.blobFront ns blobId)) with
  | some reason => exact ⟨fun _ => rfl, fun _ ended => by cases ended⟩
  | none =>
      rcases self.deleteEach_run (self.service.listed bucket (self.blobFront ns blobId)) bucket with
        ⟨gone, front, found, whole⟩
      constructor
      · intro outside
        refine (found _).trans (if_neg ?_)
        intro removed
        exact outside (named.mp (front.subset removed)).2
      · intro below ended
        refine (found _).trans ?_
        rw [whole ended]
        by_cases stored : self.shardKey ref ∈ bucket
        · exact if_pos (named.mpr ⟨stored, below⟩)
        · rw [if_neg (fun listed => stored (named.mp listed).1)]
          exact AList.lookup_eq_none.mpr stored

/-- What a deletion asks of the service: the listing below the address of the blob, and each object
there. -/
def Removes (self : RustFsBlobAnchor) (ns : NamespaceId) (blobId : BlobId) :
    ObjectRequest → Prop
  | .list front => front = self.blobFront ns blobId
  | .next key | .delete key => self.blobFront ns blobId <+: key ∧ self.blobFront ns blobId ≠ key
  | _ => False

theorem deleteEach_of_error {keys : List ObjectKey} {error : PortError}
    (failed : (self.deleteEach keys bucket).1 = .error error) :
    ∃ key ∈ keys, (∃ reason, self.service.refusal (.next key) = some reason) ∨
      ∃ reason, self.service.refusal (.delete key) = some reason := by
  induction keys generalizing bucket with
  | nil => cases failed
  | cons first keys ih =>
      rw [deleteEach] at failed
      cases listing : self.service.refusal (.next first) with
      | some reason => exact ⟨first, List.mem_cons_self, Or.inl ⟨reason, listing⟩⟩
      | none =>
          rw [listing, ObjectService.delete] at failed
          cases deletion : self.service.refusal (.delete first) with
          | some reason => exact ⟨first, List.mem_cons_self, Or.inr ⟨reason, deletion⟩⟩
          | none =>
              rw [deletion] at failed
              rcases ih failed with ⟨key, later, refused⟩
              exact ⟨key, List.mem_cons_of_mem _ later, refused⟩

/-- A deletion fails only if the service refuses one of its own requests. -/
theorem deleteBlob_of_error {error : PortError}
    (failed : (self.deleteBlob bucket ns blobId).1 = .error error) :
    ∃ request reason, self.Removes ns blobId request ∧
      self.service.refusal request = some reason := by
  rw [deleteBlob, deleteBelow] at failed
  cases listing : self.service.refusal (.list (self.blobFront ns blobId)) with
  | some reason => exact ⟨.list _, reason, rfl, listing⟩
  | none =>
      rw [listing] at failed
      rcases deleteEach_of_error failed with
        ⟨key, listed, ⟨reason, refused⟩ | ⟨reason, refused⟩⟩
      · exact ⟨.next key, reason, (ObjectService.mem_listed.mp listed).2, refused⟩
      · exact ⟨.delete key, reason, (ObjectService.mem_listed.mp listed).2, refused⟩

theorem deleteBlob_of_willing (willing : self.service.Willing) (bucket : Bucket)
    (ns : NamespaceId) (blobId : BlobId) : (self.deleteBlob bucket ns blobId).1 = .ok () := by
  cases outcome : (self.deleteBlob bucket ns blobId).1 with
  | ok done => rfl
  | error error =>
      rcases deleteBlob_of_error outcome with ⟨request, reason, -, refused⟩
      rw [willing] at refused
      cases refused

/-! ## Ids of one part -/

/-- Ids which are one part each. -/
structure OneEach (ns : NamespaceId) (blobId : BlobId) : Prop where
  ns : IsPart ns.value
  blobId : IsPart blobId.value

theorem address_of_oneEach (oneEach : OneEach ns blobId) :
    address ns blobId = [ns.value, blobId.value] := by
  rw [address, parts_of_isPart oneEach.ns, parts_of_isPart oneEach.blobId]
  rfl

theorem address_inj {ns' : NamespaceId} {blobId' : BlobId} (oneEach : OneEach ns blobId)
    (oneEach' : OneEach ns' blobId') :
    address ns blobId = address ns' blobId' ↔ ns = ns' ∧ blobId = blobId' := by
  rw [address_of_oneEach oneEach, address_of_oneEach oneEach']
  cases ns
  cases ns'
  cases blobId
  cases blobId'
  simp

theorem address_isPrefix_iff {ns' : NamespaceId} {blobId' : BlobId} (oneEach : OneEach ns blobId)
    (oneEach' : OneEach ns' blobId') :
    address ns blobId <+: address ns' blobId' ↔ ns = ns' ∧ blobId = blobId' := by
  rw [← address_inj oneEach oneEach']
  constructor
  · intro isPrefix
    apply isPrefix.eq_of_length
    rw [address_of_oneEach oneEach, address_of_oneEach oneEach']
    rfl
  · rintro same
    rw [same]

/-- The objects under addresses of two parts are the shards of the map. -/
def Stands (anchor : RustFsBlobAnchor) (bucket : Bucket) (shards : ShardMap) : Prop :=
  ∀ ref : ShardRef, OneEach ref.ns ref.blobId → bucket.lookup (anchor.shardKey ref) = shards ref

/-- The anchor behaves as the map of shards for all ids of one part. -/
theorem refines {anchor : RustFsBlobAnchor} (willing : anchor.service.Willing) :
    anchor.model.Refines OneEach anchor.Stands := by
  constructor
  · intro bucket shards ref bytes stands oneEach
    have put : anchor.model.putShard bucket ref bytes =
        (.ok (), bucket.insert (anchor.shardKey ref) bytes) := putShard_of_willing willing bytes
    rw [put]
    refine ⟨rfl, ?_⟩
    intro other otherOneEach
    by_cases same : other = ref
    · subst same
      simp
    · have elsewhere : anchor.shardKey other ≠ anchor.shardKey ref := by
        intro sameKey
        rcases shardKey_inj.mp sameKey with ⟨sameAddress, sameIndex⟩
        rcases (address_inj otherOneEach oneEach).mp sameAddress with ⟨sameNs, sameBlob⟩
        cases other
        cases ref
        exact same (by simp_all)
      rw [AList.lookup_insert_ne elsewhere, Function.update_of_ne same]
      exact stands other otherOneEach
  · intro bucket shards ref stands oneEach
    have got : anchor.getShard bucket ref =
        match bucket.lookup (anchor.shardKey ref) with
        | some bytes => .ok bytes
        | none => .error .notFound := getShard_of_willing willing
    rw [stands ref oneEach] at got
    exact got
  · intro bucket shards ns blobId stands oneEach
    have deleted := deleteBlob_of_willing willing bucket ns blobId
    refine ⟨deleted, ?_⟩
    intro ref refOneEach
    rcases anchor.deleteBlob_run bucket ns blobId ref with ⟨kept, removed⟩
    rw [address_isPrefix_iff oneEach refOneEach] at kept removed
    rw [ShardMap.erase]
    by_cases mine : ref.ns = ns ∧ ref.blobId = blobId
    · rw [if_pos mine]
      exact removed ⟨mine.1.symm, mine.2.symm⟩ deleted
    · rw [if_neg mine, ← stands ref refOneEach]
      exact kept fun same => mine ⟨same.1.symm, same.2.symm⟩

end RustFsBlobAnchor

/--
A node which keeps its shards in an object store cannot be told from one which
keeps them in a map, in any interleaving of requests. Ids are generated without
slashes, registered namespaces are one part, and a delete names an id of one part
or is under a hold.
-/
theorem objects_refine_shardMap {env : Environment} (fresh : Function.Injective env.uuid)
    (slashFree : ∀ tick, '/' ∉ (env.uuid tick).toList) {anchor : RustFsBlobAnchor}
    (willing : anchor.service.Willing) (node : Node) {first : World Bucket}
    (none : ∀ ns blobId, first.store.getManifest ns blobId = none)
    (namespaces : ∀ ns owned, first.store.getNamespace ns = some owned → IsPart ns.value)
    {requests : List Request}
    (harmless : ∀ request ∈ requests, request.Harmless first.store RustFsBlobAnchor.OneEach)
    {shards : ShardMap} (stood : anchor.Stands first.anchor shards) (schedule : List ℕ) :
    let onObjects := System.exec (world env anchor.model)
      (System.start first (requests.map (Request.program node))) schedule
    let onMap := System.exec (world env shardMap)
      (System.start ⟨first.store, shards, first.signed, first.tick⟩
        (requests.map (Request.program node))) schedule
    onObjects.programs = onMap.programs ∧ onObjects.trace = onMap.trace ∧
      onObjects.state.store = onMap.state.store ∧
      anchor.Stands onObjects.state.anchor onMap.state.anchor := by
  intro onObjects onMap
  have reachable : Reachable env first.store RustFsBlobAnchor.OneEach := by
    intro ns owned known tick
    have plain := plain_freshId slashFree tick
    exact ⟨namespaces ns owned known, plain.slashFree, fun empty => plain.moves (Or.inl empty)⟩
  have lockstep : System.Lockstep _ onObjects onMap :=
    (RustFsBlobAnchor.refines willing).exec fresh none reachable harmless stood schedule
  exact ⟨lockstep.programs, lockstep.trace, lockstep.states.store, lockstep.states.anchor⟩

/-- A service which takes parts as they are and refuses nothing. -/
def plainService : ObjectService where
  encodePart part := part
  encodePart_injective := Function.injective_id
  order keys := keys
  order_perm _ := List.Perm.refl _
  refusal _ := none

def bucketAnchor : RustFsBlobAnchor :=
  ⟨plainService⟩

def bucketWorld : World Bucket where
  store := sampleStore ⟨10, 10⟩ ⟨1, 0⟩
  anchor := ∅
  signed := []
  tick := 0

/-- A put and a delete of the blob it generates. -/
def bucketRequests : List Request :=
  [samplePut 7, .delete ⟨"ns-1"⟩ (sampleToken .delete) ⟨"blob-5"⟩]

def bucketStored : World Bucket :=
  (System.exec (world sampleEnvironment bucketAnchor.model)
    (System.start bucketWorld (bucketRequests.map (Request.program replicatingNode)))
    (List.replicate 10 0)).state

def bucketMapped : World ShardMap :=
  (System.exec (world sampleEnvironment shardMap)
    (System.start ⟨bucketWorld.store, fun _ => none, bucketWorld.signed, bucketWorld.tick⟩
      (bucketRequests.map (Request.program replicatingNode))) (List.replicate 10 0)).state

theorem objects_refine_shardMap_stored :
    bucketAnchor.Stands bucketStored.anchor bucketMapped.anchor ∧
      bucketMapped.anchor ⟨⟨"ns-1"⟩, ⟨"blob-5"⟩, 0⟩ = some [7] := by
  have slashFree : ∀ tick, '/' ∉ (sampleEnvironment.uuid tick).toList :=
    fun tick slash => absurd (isDigit_of_mem_sampleUuid slash) (by decide)
  have nothing : ∀ ns blobId, bucketWorld.store.getManifest ns blobId = none := fun _ _ => rfl
  have willing : bucketAnchor.service.Willing := fun _ => rfl
  have namespaces : ∀ ns owned, bucketWorld.store.getNamespace ns = some owned →
      IsPart ns.value := by
    intro ns owned known
    rw [getNamespace_sampleStore known]
    exact ⟨by decide, by decide⟩
  have harmless : ∀ request ∈ bucketRequests,
      request.Harmless bucketWorld.store RustFsBlobAnchor.OneEach := by
    intro request listed
    simp only [bucketRequests, List.mem_cons, List.not_mem_nil, or_false] at listed
    rcases listed with rfl | rfl
    · trivial
    · exact Or.inl ⟨⟨by decide, by decide⟩, ⟨by decide, by decide⟩⟩
  have stood : bucketAnchor.Stands bucketWorld.anchor fun _ => none := fun _ _ => rfl
  have same := objects_refine_shardMap injective_toString slashFree willing replicatingNode
    nothing namespaces harmless stood (List.replicate 10 0)
  refine ⟨?_, by decide +kernel⟩
  rw [bucketStored, bucketMapped]
  exact same.2.2.2

/-! ## Arbitrary ids -/

/--
A delete of any blob id takes only shards whose address goes on from the address
which it names, part by part, and if it succeeds it takes all of them. Without any
part in the id these are all the shards of the namespace, and leading or doubled
slashes make no difference.
-/
theorem object_delete_is_exact (anchor : RustFsBlobAnchor) (env : Environment)
    (state : World Bucket) (ns : NamespaceId) (token : CapabilityToken) (blobId : BlobId) :
    let after := (DeleteBackup.execute ns token blobId).run (world env anchor.model) state
    ∀ ref,
      (¬RustFsBlobAnchor.address ns blobId <+: RustFsBlobAnchor.address ref.ns ref.blobId →
        after.2.anchor.lookup (anchor.shardKey ref) =
          state.anchor.lookup (anchor.shardKey ref)) ∧
      (RustFsBlobAnchor.address ns blobId <+: RustFsBlobAnchor.address ref.ns ref.blobId →
        after.1 = .ok () → after.2.anchor.lookup (anchor.shardKey ref) = none) := by
  intro after ref
  have ran : after = (DeleteBackup.precheck ns token blobId >>= fun _ =>
      DeleteBackup.remove ns blobId).run (world env anchor.model) state := by
    rw [← DeleteBackup.execute_eq]
  have reads := (readOnly_run (DeleteBackup.precheck_obeys ns token blobId) env anchor.model
    state).1
  rcases checked : (DeleteBackup.precheck ns token blobId).run (world env anchor.model) state with
    ⟨outcome, middle⟩
  rw [checked] at reads
  cases outcome with
  | error failure =>
      rw [ran, Program.run_bind_of_error checked]
      exact ⟨fun _ => congrArg _ reads.2, fun _ ended => by cases ended⟩
  | ok passed =>
      rw [ran, Program.run_bind_of_ok checked]
      rcases DeleteBackup.remove_run env anchor.model middle ns blobId with ⟨removed, succeeded, -⟩
      rcases anchor.deleteBlob_run middle.anchor ns blobId ref with ⟨kept, taken⟩
      rw [removed, ← reads.2]
      exact ⟨kept, fun below ended => taken below (succeeded ended)⟩

end VaultMesh
