import VaultMesh.Locality
import VaultMesh.RepairSweep
import VaultMesh.Retention

/-!
# Where a node knows its ids from

A node asks the metadata store only about ids which came with the task, which the store has
told it before, or which it has drawn itself.
-/

namespace VaultMesh

open Interaction Coding

/-- What a node-agent serves, and what it does on its own. -/
inductive NodeTask where
  | put (mesh : Mesh) (ns : NamespaceId) (token : CapabilityToken) (ciphertext : Slice)
  | get (transport : Bool) (ns : NamespaceId) (token : CapabilityToken) (blobId : BlobId)
  | list (ns : NamespaceId) (token : CapabilityToken)
  | delete (ns : NamespaceId) (token : CapabilityToken) (blobId : BlobId)
  | repair (transport : Bool) (ns : NamespaceId) (blobId : BlobId)
  | prune (ns : NamespaceId) (objectId : String)
  | sweep (transport : Bool)

namespace NodeTask

def program (node : Node) : NodeTask → UseCase Unit
  | .put mesh ns token ciphertext => ((node.put mesh).execute ns token ciphertext).void
  | .get transport ns token blobId => ((node.get transport).execute ns token blobId).void
  | .list ns token => (ListBackups.execute ns token).void
  | .delete ns token blobId => DeleteBackup.execute ns token blobId
  | .repair transport ns blobId => ((node.repair transport).execute ns blobId).void
  | .prune ns objectId => (PruneVersions.execute ns objectId).void
  | .sweep transport => (RepairSweep.sweep (node.repair transport)).void

/-- The ids which come with a task. -/
def ids : NodeTask → List String
  | .put _ ns _ _ => [ns.value]
  | .get _ ns _ blobId => [ns.value, blobId.value]
  | .list ns _ => [ns.value]
  | .delete ns _ blobId => [ns.value, blobId.value]
  | .repair _ ns blobId => [ns.value, blobId.value]
  | .prune ns _ => [ns.value]
  | .sweep _ => []

end NodeTask

/-- How an id is known after these exchanges. -/
inductive Known (ids : List String) (past : List PortExchange) : String → Prop where
  | given {id : String} (listed : id ∈ ids) : Known ids past id
  | drawn {id : String} (answered : (⟨.newId "blob", id⟩ : PortExchange) ∈ past) :
      Known ids past id
  | owner {ns : NamespaceId} {owned : Namespace}
      (answered : (⟨.getNamespace ns, .ok (some owned)⟩ : PortExchange) ∈ past) :
      Known ids past owned.appId.value
  | ofNamespace {namespaces : List NamespaceId} {ns : NamespaceId}
      (answered : (⟨.listNamespaces, .ok namespaces⟩ : PortExchange) ∈ past)
      (listed : ns ∈ namespaces) : Known ids past ns.value
  | ofBlob {ns : NamespaceId} {blobs : List BlobId} {blobId : BlobId}
      (answered : (⟨.listBlobs ns, .ok blobs⟩ : PortExchange) ∈ past) (listed : blobId ∈ blobs) :
      Known ids past blobId.value
  | ofManifest {ns : NamespaceId} {key : BlobId} {manifest : Manifest}
      (answered : (⟨.getManifest ns key, .ok (some manifest)⟩ : PortExchange) ∈ past) :
      Known ids past manifest.blobId.value

/-- Calls of a node which ask the store about known ids only. -/
def AsksKnown (ids : List String) (past : List PortExchange) : PortCall → Prop
  | .getContract app => Known ids past app.value
  | .getNamespace ns | .namespaceUsage ns | .listBlobs ns => Known ids past ns.value
  | .getManifest ns blobId | .deleteManifest ns blobId =>
      Known ids past ns.value ∧ Known ids past blobId.value
  | .putManifest manifest => Known ids past manifest.blobId.value
  | .sign _ | .registerApp _ | .createNamespace _ => False
  | _ => True

variable {ids : List String} {past : List PortExchange} {ns : NamespaceId} {blobId : BlobId}

theorem Known.mono {id : String} {past' : List PortExchange} (known : Known ids past id)
    (subset : past ⊆ past') : Known ids past' id := by
  cases known with
  | given listed => exact .given listed
  | drawn answered => exact .drawn (subset answered)
  | owner answered => exact .owner (subset answered)
  | ofNamespace answered listed => exact .ofNamespace (subset answered) listed
  | ofBlob answered listed => exact .ofBlob (subset answered) listed
  | ofManifest answered => exact .ofManifest (subset answered)

theorem Known.append {id : String} (known : Known ids past id) (suffix : List PortExchange) :
    Known ids (past ++ suffix) id :=
  known.mono (List.subset_append_left _ _)

theorem known_of_shardReads {α : Type} {program : UseCase α}
    {post : List PortExchange → Except Failure α → Prop}
    (obeys : program.Obeys (fun _ => ShardReads ns blobId) past post) :
    program.Obeys (AsksKnown ids) past post := by
  refine obeys.weaken ?_
  intro past call reads
  cases call with
  | getShard _ | fetchShard _ _ => exact trivial
  | _ => exact reads.elim

theorem known_of_shardTraffic {α : Type} {program : UseCase α}
    {post : List PortExchange → Except Failure α → Prop}
    (obeys : program.Obeys (fun _ => ShardTraffic ns blobId) past post) :
    program.Obeys (AsksKnown ids) past post := by
  refine obeys.weaken ?_
  intro past call traffic
  cases call with
  | putShard _ _ | sendShard _ _ _ => exact trivial
  | _ => exact traffic.elim

/-- On success the application is known to own the namespace. -/
theorem authorize_known (given : ns.value ∈ ids) (token : CapabilityToken)
    (operation : Operation) :
    (authorize ns token operation).Obeys (AsksKnown ids) [] fun past' result =>
      ∀ app, result = .ok app → Known ids past' app.value := by
  refine Program.Obeys.call_bind trivial (by rintro _ _ _ _ ⟨⟩) ?_
  intro verified _ _
  refine Program.Obeys.call_bind trivial (by rintro _ _ ⟨⟩) ?_
  intro time _ _
  rw [Program.obeys_bind, Program.obeys_done]
  cases fromDomain (token.authorize token.claims.appId ns operation _) with
  | error failure => rintro _ ⟨⟩
  | ok _ =>
      rw [Program.thenObeys_ok]
      refine Program.Obeys.call_bind (.given given) (by rintro _ _ _ _ ⟨⟩) ?_
      intro answer found wentFound
      rcases question_eq_ok wentFound with rfl
      cases found with
      | none => rintro _ ⟨⟩
      | some owned =>
          simp only [okOr_some, pure_bind]
          split
          · next owns =>
              rintro app same
              rcases Except.ok.inj same with rfl
              have sameApp : owned.appId = token.claims.appId := by
                simpa [Namespace.ownedBy] using owns
              rw [← sameApp]
              exact .owner (List.mem_append_right _ List.mem_cons_self)
          · rintro _ ⟨⟩

/-! ## The use-cases -/

theorem PutBackup.execute_known (self : PutBackup) (given : ns.value ∈ ids)
    (token : CapabilityToken) (ciphertext : Slice) :
    (self.execute ns token ciphertext).Obeys (AsksKnown ids) [] fun _ _ => True := by
  refine (authorize_known given token .put).bind (fun _ _ _ => trivial) ?_
  intro _ app authorized
  refine Program.Obeys.call_bind (authorized app rfl) (fun _ _ _ => trivial) ?_
  intro _ known _
  cases known with
  | none => exact trivial
  | some contract =>
      refine Program.Obeys.call_bind (.given given) (fun _ _ _ => trivial) ?_
      intro _ usage _
      dsimp only
      split
      · refine Program.Obeys.call_bind trivial (fun _ _ _ => trivial) ?_
        rintro id value ⟨⟩
        rw [Program.obeys_bind, Program.obeys_done]
        cases self.erasure.encode ciphertext.bytes contract.erasure with
        | error failure => exact trivial
        | ok word =>
            rw [Program.thenObeys_ok]
            refine (known_of_shardTraffic (self.storeShards_obeys ns ⟨id⟩ 0 word _)).bind
              (fun _ _ _ => trivial) ?_
            intro _ recorded _
            refine Program.Obeys.call_bind trivial (fun _ _ _ => trivial) ?_
            intro _ time _
            refine Program.Obeys.call_bind ?_ (fun _ _ _ => trivial) fun _ _ _ => trivial
            exact .drawn (by simp [Manifest.new])
      · exact trivial

theorem GetBackup.execute_known (self : GetBackup) (given : ns.value ∈ ids)
    (givenBlob : blobId.value ∈ ids) (token : CapabilityToken) :
    (self.execute ns token blobId).Obeys (AsksKnown ids) [] fun _ _ => True := by
  have restored : (self.restore ns token blobId).Obeys (AsksKnown ids) [] fun _ _ => True := by
    refine (authorize_known given token .get).bind (fun _ _ _ => trivial) ?_
    intro _ _ _
    refine Program.Obeys.call_bind ⟨.given given, .given givenBlob⟩ (fun _ _ _ => trivial) ?_
    intro _ found _
    cases found with
    | none => exact trivial
    | some manifest =>
        exact (known_of_shardReads (self.collect_shardReads ns blobId manifest.shards _)).bind
          (fun _ _ _ => trivial) fun _ _ _ => trivial
  exact restored.bind (fun _ _ _ => trivial) fun _ _ _ => trivial

theorem ListBackups.execute_known (given : ns.value ∈ ids) (token : CapabilityToken) :
    (ListBackups.execute ns token).Obeys (AsksKnown ids) [] fun _ _ => True := by
  refine (authorize_known given token .list).bind (fun _ _ _ => trivial) ?_
  intro _ _ _
  exact ⟨.given given, fun _ => trivial⟩

/-- Deleting what is known. -/
theorem remove_known (known : Known ids past ns.value) (knownBlob : Known ids past blobId.value) :
    (DeleteBackup.remove ns blobId).Obeys (AsksKnown ids) past fun _ _ => True := by
  refine Program.Obeys.call_bind trivial (fun _ _ _ => trivial) ?_
  intro _ _ _
  exact ⟨⟨known.append _, knownBlob.append _⟩, fun _ => trivial⟩

theorem DeleteBackup.execute_known (given : ns.value ∈ ids) (givenBlob : blobId.value ∈ ids)
    (token : CapabilityToken) :
    (execute ns token blobId).Obeys (AsksKnown ids) [] fun _ _ => True := by
  refine (authorize_known given token .delete).bind (fun _ _ _ => trivial) ?_
  intro _ app authorized
  refine Program.Obeys.call_bind (authorized app rfl) (fun _ _ _ => trivial) ?_
  intro _ known _
  cases known with
  | none => exact trivial
  | some contract =>
      simp only [okOr_some, pure_bind]
      split
      · refine Program.Obeys.call_bind ⟨.given given, .given givenBlob⟩ (fun _ _ _ => trivial) ?_
        intro _ read _
        cases read with
        | none => exact trivial
        | some manifest =>
            refine Program.Obeys.call_bind trivial (fun _ _ _ => trivial) ?_
            intro _ time _
            dsimp only
            split
            · exact remove_known (.given given) (.given givenBlob)
            · exact trivial
      · exact remove_known (.given given) (.given givenBlob)

namespace RepairShards

theorem rebuild_known (self : RepairShards) (manifest : Manifest)
    (collected : List (Option Bytes)) (bad : List UInt16) (past : List PortExchange) :
    (self.rebuild ns blobId manifest collected bad).Obeys (AsksKnown ids) past
      fun _ _ => True := by
  rw [rebuild]
  split
  · rw [Program.obeys_bind, Program.obeys_done]
    cases self.erasure.decode collected manifest.erasure manifest.ciphertextLen.toNat with
    | error failure => exact trivial
    | ok data =>
        rw [Program.thenObeys_ok, Program.obeys_bind, Program.obeys_done]
        cases self.erasure.encode data manifest.erasure with
        | error failure => exact trivial
        | ok fresh =>
            rw [Program.thenObeys_ok]
            exact (known_of_shardTraffic (self.rewrite_shardTraffic ns blobId bad fresh
              manifest.shards past)).bind (fun _ _ _ => trivial) fun _ _ _ => trivial
  · exact trivial

theorem execute_known (self : RepairShards) (known : Known ids past ns.value)
    (knownBlob : Known ids past blobId.value) :
    (self.execute ns blobId).Obeys (AsksKnown ids) past fun _ _ => True := by
  refine Program.Obeys.call_bind ⟨known, knownBlob⟩ (fun _ _ _ => trivial) ?_
  intro _ found _
  cases found with
  | none => exact trivial
  | some manifest =>
      refine (known_of_shardReads (self.classify_shardReads ns blobId manifest.shards _)).bind
        (fun _ _ _ => trivial) ?_
      rintro _ ⟨collected, bad⟩ -
      dsimp only
      split
      · exact trivial
      · split
        · exact self.rebuild_known manifest collected bad _
        · refine (known_of_shardReads (self.backfillFromPeers_shardReads ns blobId manifest
            collected bad _)).bind (fun _ _ _ => trivial) ?_
          intro _ borrowed _
          exact self.rebuild_known manifest borrowed bad _

end RepairShards

namespace PruneVersions

/-- What is collected has been read. -/
theorem collectVersions_known (given : ns.value ∈ ids) (objectId : String)
    {blobs : List BlobId} (listed : ∀ blobId ∈ blobs, Known ids past blobId.value) :
    (collectVersions ns objectId blobs).Obeys (AsksKnown ids) past fun past' result =>
      ∀ versions, result = .ok versions →
        ∀ version ∈ versions, Known ids past' version.blobId.value := by
  induction blobs generalizing past with
  | nil => rintro _ ⟨⟩ version ⟨⟩
  | cons blobId blobs ih =>
      rcases List.forall_mem_cons.mp listed with ⟨here, rest⟩
      refine Program.Obeys.call_bind ⟨.given given, here⟩ (by rintro _ _ _ _ ⟨⟩) ?_
      intro answer found went
      rcases question_eq_ok went with rfl
      refine (ih fun other inside => (rest other inside).append _).bind (by rintro _ _ _ _ ⟨⟩) ?_
      intro suffix versions read
      have knownVersions := read versions rfl
      cases found with
      | none =>
          rintro _ ⟨⟩
          exact knownVersions
      | some manifest =>
          dsimp only
          split
          · rintro _ ⟨⟩
            have here : (⟨.getManifest ns blobId, .ok (some manifest)⟩ : PortExchange) ∈
                past ++ [⟨.getManifest ns blobId, .ok (some manifest)⟩] ++ suffix := by simp
            exact List.forall_mem_cons.mpr ⟨.ofManifest here, knownVersions⟩
          · rintro _ ⟨⟩
            exact knownVersions

theorem deleteOlder_known (retention : RetentionPolicy) (time : Timestamp) (keep index : ℕ)
    {versions : List Manifest} (given : ns.value ∈ ids)
    (read : ∀ version ∈ versions, Known ids past version.blobId.value) :
    (deleteOlder ns retention time keep index versions).Obeys (AsksKnown ids) past
      fun _ _ => True := by
  induction versions generalizing index past with
  | nil => exact trivial
  | cons version versions ih =>
      rcases List.forall_mem_cons.mp read with ⟨here, rest⟩
      rw [deleteOlder]
      split
      · exact (ih _ rest).bind (fun _ _ _ => trivial) fun _ _ _ => trivial
      · split
        · refine Program.Obeys.call_bind trivial (fun _ _ _ => trivial) ?_
          intro _ _ _
          refine Program.Obeys.call_bind ⟨.given given, here.append _⟩ (fun _ _ _ => trivial) ?_
          intro _ _ _
          exact (ih _ fun other inside => ((rest other inside).append _).append _).bind
            (fun _ _ _ => trivial) fun _ _ _ => trivial
        · exact (ih _ rest).bind (fun _ _ _ => trivial) fun _ _ _ => trivial

theorem execute_known (given : ns.value ∈ ids) (objectId : String) :
    (execute ns objectId).Obeys (AsksKnown ids) [] fun _ _ => True := by
  refine Program.Obeys.call_bind (.given given) (fun _ _ _ => trivial) ?_
  intro answer owner wentOwner
  rcases question_eq_ok wentOwner with rfl
  cases owner with
  | none => exact trivial
  | some owned =>
      refine Program.Obeys.call_bind ?_ (fun _ _ _ => trivial) ?_
      · exact Known.owner (List.mem_append_right _ List.mem_cons_self)
      intro _ known _
      cases known with
      | none => exact trivial
      | some contract =>
          refine Program.Obeys.call_bind (.given given) (fun _ _ _ => trivial) ?_
          intro answer blobs wentBlobs
          rcases question_eq_ok wentBlobs with rfl
          refine (collectVersions_known given objectId ?_).bind (fun _ _ _ => trivial) ?_
          · intro blobId inside
            exact .ofBlob (List.mem_append_right _ List.mem_cons_self) inside
          intro _ versions read
          dsimp only [sweep]
          split
          · exact trivial
          · refine Program.Obeys.call_bind trivial (fun _ _ _ => trivial) ?_
            intro _ time _
            refine (deleteOlder_known contract.retention _ _ 0 given ?_).bind
              (fun _ _ _ => trivial) fun _ _ _ => trivial
            intro version inside
            have collected := (newestFirst_perm versions).mem_iff.mp inside
            exact (read versions rfl version collected).append _

end PruneVersions

namespace RepairSweep

variable (repair : RepairShards)

theorem sweepBlobs_known {blobs : List BlobId} (known : Known ids past ns.value)
    (listed : ∀ blobId ∈ blobs, Known ids past blobId.value) (counts : SweepCounts) :
    (sweepBlobs repair ns blobs counts).Obeys (AsksKnown ids) past fun _ _ => True := by
  induction blobs generalizing counts past with
  | nil => exact trivial
  | cons blobId blobs ih =>
      rcases List.forall_mem_cons.mp listed with ⟨here, rest⟩
      have visited : (sweepBlob repair ns blobId counts).Obeys (AsksKnown ids) past
          fun _ _ => True := by
        refine (repair.execute_known known here).attempt.bind (fun _ _ _ => trivial) ?_
        intro _ outcome _
        cases outcome with
        | ok report => exact trivial
        | error failure => cases failure <;> exact trivial
      refine visited.bind (fun _ _ _ => trivial) ?_
      intro _ tallied _
      exact ih (known.append _) (fun other inside => (rest other inside).append _) tallied

theorem sweepNamespaces_known {namespaces : List NamespaceId}
    (listed : ∀ ns ∈ namespaces, Known ids past ns.value) (counts : SweepCounts) :
    (sweepNamespaces repair namespaces counts).Obeys (AsksKnown ids) past fun _ _ => True := by
  induction namespaces generalizing counts past with
  | nil => exact trivial
  | cons ns namespaces ih =>
      rcases List.forall_mem_cons.mp listed with ⟨here, rest⟩
      refine Program.Obeys.call_bind here (fun _ _ _ => trivial) ?_
      intro answer outcome went
      rcases Except.ok.inj went with rfl
      have blobs : ∀ blobId ∈ (question answer).toOption.getD [],
          Known ids (past ++ [⟨.listBlobs ns, answer⟩]) blobId.value := by
        intro blobId inside
        cases answer with
        | ok blobs => exact .ofBlob (List.mem_append_right _ List.mem_cons_self) inside
        | error error => cases inside
      refine (sweepBlobs_known repair (here.append _) blobs counts).bind (fun _ _ _ => trivial) ?_
      intro _ tallied _
      exact ih (fun other inside => ((rest other inside).append _).append _) tallied

theorem sweep_known : (sweep repair).Obeys (AsksKnown ids) [] fun _ _ => True := by
  refine Program.Obeys.call_bind trivial (fun _ _ _ => trivial) ?_
  intro answer outcome went
  rcases Except.ok.inj went with rfl
  cases answer with
  | error error => exact trivial
  | ok namespaces =>
      refine (sweepNamespaces_known repair ?_ _).bind (fun _ _ _ => trivial) ?_
      · intro ns inside
        exact .ofNamespace (List.mem_append_right _ List.mem_cons_self) inside
      · intro _ counts _
        exact ⟨trivial, fun _ => trivial⟩

end RepairSweep

/-- Whatever the ports answer, a task asks about known ids only. -/
theorem NodeTask.program_known (node : Node) (task : NodeTask) :
    (task.program node).Obeys (AsksKnown task.ids) [] fun _ _ => True := by
  have voided : ∀ {α : Type} {program : UseCase α} {ids : List String},
      program.Obeys (AsksKnown ids) [] (fun _ _ => True) →
      program.void.Obeys (AsksKnown ids) [] fun _ _ => True :=
    fun obeys => obeys.bind (fun _ _ _ => trivial) fun _ _ _ => trivial
  cases task with
  | put mesh ns token ciphertext =>
      exact voided ((node.put mesh).execute_known (by simp [ids]) token ciphertext)
  | get transport ns token blobId =>
      exact voided ((node.get transport).execute_known (by simp [ids]) (by simp [ids]) token)
  | list ns token => exact voided (ListBackups.execute_known (by simp [ids]) token)
  | delete ns token blobId =>
      exact DeleteBackup.execute_known (by simp [ids]) (by simp [ids]) token
  | repair transport ns blobId =>
      exact voided ((node.repair transport).execute_known (.given (by simp [ids]))
        (.given (by simp [ids])))
  | prune ns objectId => exact voided (PruneVersions.execute_known (by simp [ids]) objectId)
  | sweep transport => exact voided (RepairSweep.sweep_known (node.repair transport))

end VaultMesh
