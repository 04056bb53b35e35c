import VaultMesh.Requests

/-!
# How far a request reaches

A request works on one namespace. Whatever the ports answer, it asks the store
and the anchor about this namespace only, and it touches the shards of a blob
only if it has read the blob's manifest or has drawn the blob's id itself.
-/

namespace VaultMesh

open Interaction Coding

namespace Request

/-- The namespace which a request works on. -/
def ns : Request → NamespaceId
  | .put _ ns _ _ => ns
  | .get _ ns _ _ => ns
  | .repair _ ns _ => ns
  | .prune ns _ => ns
  | .delete ns _ _ => ns
  | .setName ns _ _ => ns

end Request

/-- The owner of the namespace has been found. -/
def Found (ns : NamespaceId) (past : List PortExchange) : Prop :=
  ∃ owned, (⟨.getNamespace ns, .ok (some owned)⟩ : PortExchange) ∈ past

/-- A manifest has been read under this address. -/
def ManifestRead (ns : NamespaceId) (blobId : BlobId) (past : List PortExchange) : Prop :=
  ∃ manifest, (⟨.getManifest ns blobId, .ok (some manifest)⟩ : PortExchange) ∈ past

/-- A put has found the namespace and has drawn this id in it. -/
def Drawn (ns : NamespaceId) (blobId : BlobId) (past : List PortExchange) : Prop :=
  Found ns past ∧ (⟨.newId "blob", blobId.value⟩ : PortExchange) ∈ past

/-- The calls of a request on `ns`. -/
def Local (ns : NamespaceId) (past : List PortExchange) : PortCall → Prop
  | .getNamespace id | .namespaceUsage id | .listBlobs id => id = ns
  | .getManifest ns' _ | .deleteManifest ns' _ => ns' = ns
  | .deleteBlob ns' _ => ns' = ns ∧ Found ns past
  | .putManifest manifest => manifest.ns = ns ∨ ∃ key read,
      (⟨.getManifest ns key, .ok (some read)⟩ : PortExchange) ∈ past ∧ manifest.ns = read.ns
  | .getShard ref => ref.ns = ns ∧ ManifestRead ns ref.blobId past
  | .putShard ref _ => ref.ns = ns ∧ (ManifestRead ns ref.blobId past ∨ Drawn ns ref.blobId past)
  | .sign _ | .registerApp _ | .createNamespace _ | .listNamespaces => False
  | _ => True

variable {ns : NamespaceId} {blobId : BlobId} {past : List PortExchange}

theorem Found.mono {past' : List PortExchange} (found : Found ns past) (subset : past ⊆ past') :
    Found ns past' := by
  rcases found with ⟨owned, answered⟩
  exact ⟨owned, subset answered⟩

/-- Authorization asks for one namespace, and on success it has found it. -/
theorem authorize_local (ns : NamespaceId) (token : CapabilityToken) (operation : Operation) :
    (authorize ns token operation).Obeys (Local ns) [] fun past' result =>
      ∀ app, result = .ok app → Found ns past' := by
  refine Program.Obeys.call_bind trivial (by rintro _ _ _ _ ⟨⟩) ?_
  intro verified _ _
  refine Program.Obeys.call_bind trivial (by rintro _ _ ⟨⟩) ?_
  intro time _ _
  rw [Program.obeys_bind, Program.obeys_done]
  cases fromDomain (token.authorize token.claims.appId ns operation _) with
  | error failure => rintro _ ⟨⟩
  | ok _ =>
      rw [Program.thenObeys_ok]
      refine Program.Obeys.call_bind rfl (by rintro _ _ _ _ ⟨⟩) ?_
      intro answer found wentFound
      rcases question_eq_ok wentFound with rfl
      cases found with
      | none => rintro _ ⟨⟩
      | some owned =>
          simp only [okOr_some, pure_bind]
          split
          · rintro app -
            exact ⟨owned, by simp⟩
          · rintro _ ⟨⟩

/-! ## Traffic of one blob -/

/-- Reading the shards of one blob, from the anchor or from peers. -/
def ShardReads (ns : NamespaceId) (blobId : BlobId) : PortCall → Prop
  | .getShard ref => ref.ns = ns ∧ ref.blobId = blobId
  | .fetchShard _ _ => True
  | _ => False

theorem ShardReads.permitted {request : PortCall} (reads : ShardReads ns blobId request)
    (read : ManifestRead ns blobId past) : Local ns past request := by
  cases request with
  | getShard ref =>
      rcases reads with ⟨sameNs, rfl⟩
      exact ⟨sameNs, read⟩
  | fetchShard peer ref => exact trivial
  | _ => exact reads.elim

theorem ShardTraffic.permitted {request : PortCall} (traffic : ShardTraffic ns blobId request)
    (entitled : ManifestRead ns blobId past ∨ Drawn ns blobId past) : Local ns past request := by
  cases request with
  | putShard ref bytes =>
      rcases traffic with ⟨sameNs, rfl⟩
      exact ⟨sameNs, entitled⟩
  | sendShard peer ref bytes => exact trivial
  | _ => exact traffic.elim

theorem ManifestRead.mono {past' : List PortExchange} (read : ManifestRead ns blobId past)
    (subset : past ⊆ past') : ManifestRead ns blobId past' := by
  rcases read with ⟨manifest, answered⟩
  exact ⟨manifest, subset answered⟩

/-- A program which only reads shards of the blob may run once the manifest is read. -/
theorem local_of_shardReads {α : Type} {program : UseCase α} (read : ManifestRead ns blobId past)
    (obeys : program.Obeys (fun _ => ShardReads ns blobId) past fun _ _ => True) :
    program.Obeys (Local ns) past fun past' _ => ∃ suffix, past' = past ++ suffix :=
  obeys.mono (fun _ _ reads => reads.permitted (read.mono (List.subset_append_left _ _)))
    fun suffix _ _ => ⟨suffix, rfl⟩

theorem Drawn.mono {past' : List PortExchange} (drawn : Drawn ns blobId past)
    (subset : past ⊆ past') : Drawn ns blobId past' :=
  ⟨drawn.1.mono subset, subset drawn.2⟩

/-- Its shards may be written once the manifest is read or the id is drawn. -/
theorem local_of_shardTraffic {α : Type} {program : UseCase α}
    {post : List PortExchange → Except Failure α → Prop}
    (entitled : ManifestRead ns blobId past ∨ Drawn ns blobId past)
    (obeys : program.Obeys (fun _ => ShardTraffic ns blobId) past post) :
    program.Obeys (Local ns) past fun _ _ => True := by
  refine obeys.mono ?_ fun _ _ _ => trivial
  intro suffix request traffic
  have grows := List.subset_append_left past suffix
  exact traffic.permitted (entitled.imp (fun read => read.mono grows)
    fun drawn => drawn.mono grows)

namespace GetBackup

theorem collect_shardReads (self : GetBackup) (ns : NamespaceId) (blobId : BlobId)
    (shards : List Shard) (past : List PortExchange) :
    (self.collect ns blobId shards).Obeys (fun _ => ShardReads ns blobId) past
      fun _ _ => True := by
  induction shards generalizing past with
  | nil => exact trivial
  | cons shard shards ih =>
      have peers : (self.loadFromPeers ⟨ns, blobId, shard.index⟩ shard).Obeys
          (fun _ => ShardReads ns blobId) past fun _ _ => True := by
        unfold loadFromPeers
        split
        · exact fetchReplica_obeys (fun _ _ => trivial) _ _ _ _
        · exact trivial
      have load : (self.loadShard ⟨ns, blobId, shard.index⟩ shard).Obeys
          (fun _ => ShardReads ns blobId) past fun _ _ => True := by
        refine peers.bind (fun _ _ _ => trivial) ?_
        intro _ replica _
        cases replica with
        | some bytes => exact trivial
        | none =>
            refine Program.Obeys.call_bind ⟨rfl, rfl⟩ (fun _ _ _ => trivial) ?_
            intro _ outcome _
            cases outcome with
            | error error => exact trivial
            | ok bytes =>
                dsimp only
                split <;> exact trivial
      refine load.bind (fun _ _ _ => trivial) ?_
      intro _ slot _
      exact (ih _).bind (fun _ _ _ => trivial) fun _ _ _ => trivial

theorem restore_local (self : GetBackup) (ns : NamespaceId) (token : CapabilityToken)
    (blobId : BlobId) :
    (self.restore ns token blobId).Obeys (Local ns) [] fun _ _ => True := by
  refine (authorize_local ns token .get).bind (fun _ _ _ => trivial) ?_
  intro _ _ _
  refine Program.Obeys.call_bind rfl (fun _ _ _ => trivial) ?_
  intro answer found wentFound
  rcases question_eq_ok wentFound with rfl
  cases found with
  | none => exact trivial
  | some manifest =>
      refine (local_of_shardReads ⟨manifest, by simp⟩
        (self.collect_shardReads ns blobId manifest.shards _)).bind (fun _ _ _ => trivial) ?_
      exact fun _ _ _ => trivial

end GetBackup

namespace PutBackup

theorem store_local (self : PutBackup) (contract : AppContract) (ciphertext : Slice)
    (found : Found ns past) :
    (self.store ns contract ciphertext).Obeys (Local ns) past fun _ _ => True := by
  refine Program.Obeys.call_bind trivial (fun _ _ _ => trivial) ?_
  rintro id value ⟨⟩
  rw [Program.obeys_bind, Program.obeys_done]
  cases self.erasure.encode ciphertext.bytes contract.erasure with
  | error failure => exact trivial
  | ok word =>
      rw [Program.thenObeys_ok]
      have drawn : Drawn ns ⟨id⟩ (past ++ [⟨.newId "blob", id⟩]) :=
        ⟨found.mono (List.subset_append_left _ _), by simp⟩
      refine (local_of_shardTraffic (Or.inr drawn)
        (self.storeShards_obeys ns ⟨id⟩ 0 word _)).bind (fun _ _ _ => trivial) ?_
      intro _ recorded _
      refine Program.Obeys.call_bind trivial (fun _ _ _ => trivial) ?_
      intro _ time _
      exact Program.Obeys.call_bind (Or.inl rfl) (fun _ _ _ => trivial) fun _ _ _ => trivial

theorem execute_local (self : PutBackup) (ns : NamespaceId) (token : CapabilityToken)
    (ciphertext : Slice) :
    (self.execute ns token ciphertext).Obeys (Local ns) [] fun _ _ => True := by
  refine (authorize_local ns token .put).bind (fun _ _ _ => trivial) ?_
  intro _ app found
  refine Program.Obeys.call_bind trivial (fun _ _ _ => trivial) ?_
  intro answer known _
  cases known with
  | none => exact trivial
  | some contract =>
      refine Program.Obeys.call_bind rfl (fun _ _ _ => trivial) ?_
      intro answer usage _
      dsimp only
      split
      · refine self.store_local contract ciphertext ((found app rfl).mono ?_)
        rw [List.append_assoc]
        exact List.subset_append_left _ _
      · exact trivial

end PutBackup

namespace RepairShards

theorem classify_shardReads (self : RepairShards) (ns : NamespaceId) (blobId : BlobId)
    (shards : List Shard) (past : List PortExchange) :
    (self.classify ns blobId shards).Obeys (fun _ => ShardReads ns blobId) past
      fun _ _ => True := by
  induction shards generalizing past with
  | nil => exact trivial
  | cons shard shards ih =>
      refine Program.Obeys.call_bind ⟨rfl, rfl⟩ (fun _ _ _ => trivial) ?_
      intro _ outcome _
      cases outcome with
      | ok bytes =>
          refine (ih _).bind (fun _ _ _ => trivial) ?_
          intro _ rest _
          dsimp only
          split <;> exact trivial
      | error error =>
          cases error with
          | notFound => exact (ih _).bind (fun _ _ _ => trivial) fun _ _ _ => trivial
          | _ => exact trivial

theorem backfillFromPeers_shardReads (self : RepairShards) (ns : NamespaceId) (blobId : BlobId)
    (manifest : Manifest) (collected : List (Option Bytes)) (bad : List UInt16)
    (past : List PortExchange) :
    (self.backfillFromPeers ns blobId manifest collected bad).Obeys
      (fun _ => ShardReads ns blobId) past fun _ _ => True := by
  have fill : ∀ shards collected available past,
      (self.backfill ns blobId manifest.erasure.k.toNat bad shards collected available).Obeys
        (fun _ => ShardReads ns blobId) past fun _ _ => True := by
    intro shards
    induction shards with
    | nil => exact fun _ _ _ => trivial
    | cons shard shards ih =>
        intro collected available past
        rw [backfill]
        split
        · exact trivial
        · split
          · exact ih _ _ _
          · refine (fetchReplica_obeys (fun _ _ => trivial) _ _ _ past).bind
              (fun _ _ _ => trivial) ?_
            intro _ replica _
            cases replica with
            | none => exact ih _ _ _
            | some bytes =>
                dsimp only
                split
                · exact ih _ _ _
                · exact trivial
  unfold backfillFromPeers
  split
  · exact fill _ _ _ _
  · exact trivial

theorem rewrite_shardTraffic (self : RepairShards) (ns : NamespaceId) (blobId : BlobId)
    (bad : List UInt16) (fresh : List Bytes) (shards : List Shard) (past : List PortExchange) :
    (self.rewrite ns blobId bad fresh shards).Obeys (fun _ => ShardTraffic ns blobId) past
      fun _ _ => True := by
  induction shards generalizing past with
  | nil => exact trivial
  | cons shard shards ih =>
      rw [rewrite]
      split
      · exact ih _
      · split
        · exact trivial
        · refine Program.Obeys.call_bind ⟨rfl, rfl⟩ (fun _ _ _ => trivial) ?_
          intro _ _ _
          refine (self.reReplicate_obeys (fun _ _ _ _ => trivial) _ _ _ _).bind
            (fun _ _ _ => trivial) ?_
          intro _ _ _
          exact (ih _).bind (fun _ _ _ => trivial) fun _ _ _ => trivial

theorem rebuild_local (self : RepairShards) (manifest : Manifest)
    (collected : List (Option Bytes)) (bad : List UInt16) (read : ManifestRead ns blobId past) :
    (self.rebuild ns blobId manifest collected bad).Obeys (Local ns) past fun _ _ => True := by
  rw [rebuild]
  split
  · rw [Program.obeys_bind, Program.obeys_done]
    cases self.erasure.decode collected manifest.erasure manifest.ciphertextLen.toNat with
    | error failure => exact trivial
    | ok data =>
        rw [Program.thenObeys_ok, Program.obeys_bind, Program.obeys_done]
        cases self.erasure.encode data manifest.erasure with
        | error failure => exact trivial
        | ok fresh =>
            rw [Program.thenObeys_ok]
            exact (local_of_shardTraffic (Or.inl read)
              (self.rewrite_shardTraffic ns blobId bad fresh manifest.shards past)).bind
              (fun _ _ _ => trivial) fun _ _ _ => trivial
  · exact trivial

theorem execute_local (self : RepairShards) (ns : NamespaceId) (blobId : BlobId) :
    (self.execute ns blobId).Obeys (Local ns) [] fun _ _ => True := by
  refine Program.Obeys.call_bind rfl (fun _ _ _ => trivial) ?_
  intro answer found wentFound
  rcases question_eq_ok wentFound with rfl
  cases found with
  | none => exact trivial
  | some manifest =>
      have read : ManifestRead ns blobId ([] ++ [⟨.getManifest ns blobId, .ok (some manifest)⟩]) :=
        ⟨manifest, by simp⟩
      refine (local_of_shardReads read
        (self.classify_shardReads ns blobId manifest.shards _)).bind (fun _ _ _ => trivial) ?_
      rintro _ ⟨collected, bad⟩ ⟨classified, grown⟩
      rw [grown]
      have readThen := read.mono (List.subset_append_left _ classified)
      dsimp only
      split
      · exact trivial
      · split
        · exact self.rebuild_local manifest collected bad readThen
        · refine (local_of_shardReads readThen (self.backfillFromPeers_shardReads ns blobId
            manifest collected bad _)).bind (fun _ _ _ => trivial) ?_
          rintro _ borrowed ⟨asked, more⟩
          rw [more]
          exact self.rebuild_local manifest borrowed bad
            (readThen.mono (List.subset_append_left _ asked))

end RepairShards

/-! ## Removals and names -/

theorem remove_local (blobId : BlobId) (found : Found ns past) :
    (DeleteBackup.remove ns blobId).Obeys (Local ns) past fun _ _ => True :=
  Program.Obeys.call_bind ⟨rfl, found⟩ (fun _ _ _ => trivial)
    fun _ _ _ => ⟨rfl, fun _ => trivial⟩

theorem DeleteBackup.execute_local (ns : NamespaceId) (token : CapabilityToken)
    (blobId : BlobId) : (execute ns token blobId).Obeys (Local ns) [] fun _ _ => True := by
  refine (authorize_local ns token .delete).bind (fun _ _ _ => trivial) ?_
  intro _ app authorized
  have found := authorized app rfl
  refine Program.Obeys.call_bind trivial (fun _ _ _ => trivial) ?_
  intro _ known _
  cases known with
  | none => exact trivial
  | some contract =>
      simp only [okOr_some, pure_bind]
      split
      · refine Program.Obeys.call_bind rfl (fun _ _ _ => trivial) ?_
        intro _ read _
        cases read with
        | none => exact trivial
        | some manifest =>
            refine Program.Obeys.call_bind trivial (fun _ _ _ => trivial) ?_
            intro _ time _
            dsimp only
            split
            · refine remove_local blobId (found.mono ?_)
              simp only [List.append_assoc]
              exact List.subset_append_left _ _
            · exact trivial
      · exact remove_local blobId (found.mono (List.subset_append_left _ _))

namespace PruneVersions

theorem collectVersions_local (ns : NamespaceId) (objectId : String) (blobs : List BlobId)
    (past : List PortExchange) :
    (collectVersions ns objectId blobs).Obeys (Local ns) past
      fun past' _ => ∃ suffix, past' = past ++ suffix := by
  induction blobs generalizing past with
  | nil => exact ⟨[], by simp⟩
  | cons blobId blobs ih =>
      refine Program.Obeys.call_bind rfl (fun _ _ _ => ⟨_, rfl⟩) ?_
      intro answer found _
      refine (ih _).bind ?_ ?_
      · rintro _ _ ⟨suffix, grown⟩
        exact ⟨[⟨.getManifest ns blobId, answer⟩] ++ suffix, by rw [grown, List.append_assoc]⟩
      · rintro _ versions ⟨suffix, grown⟩
        rw [grown, List.append_assoc]
        cases found with
        | none => exact ⟨_, rfl⟩
        | some manifest =>
            dsimp only
            split <;> exact ⟨_, rfl⟩

theorem deleteOlder_local (retention : RetentionPolicy) (time : Timestamp) (keep index : ℕ)
    (versions : List Manifest) (found : Found ns past) :
    (deleteOlder ns retention time keep index versions).Obeys (Local ns) past
      fun _ _ => True := by
  induction versions generalizing index past with
  | nil => exact trivial
  | cons version versions ih =>
      rw [deleteOlder]
      split
      · exact (ih _ found).bind (fun _ _ _ => trivial) fun _ _ _ => trivial
      · split
        · refine Program.Obeys.call_bind ⟨rfl, found⟩ (fun _ _ _ => trivial) ?_
          intro _ _ _
          refine Program.Obeys.call_bind rfl (fun _ _ _ => trivial) ?_
          intro _ _ _
          refine (ih _ (found.mono ?_)).bind (fun _ _ _ => trivial) fun _ _ _ => trivial
          rw [List.append_assoc]
          exact List.subset_append_left _ _
        · exact (ih _ found).bind (fun _ _ _ => trivial) fun _ _ _ => trivial

theorem execute_local (ns : NamespaceId) (objectId : String) :
    (execute ns objectId).Obeys (Local ns) [] fun _ _ => True := by
  refine Program.Obeys.call_bind rfl (fun _ _ _ => trivial) ?_
  intro answer owner wentOwner
  rcases question_eq_ok wentOwner with rfl
  cases owner with
  | none => exact trivial
  | some owned =>
      have found : Found ns ([] ++ [⟨.getNamespace ns, .ok (some owned)⟩]) := ⟨owned, by simp⟩
      refine Program.Obeys.call_bind trivial (fun _ _ _ => trivial) ?_
      intro _ known _
      cases known with
      | none => exact trivial
      | some contract =>
          refine Program.Obeys.call_bind rfl (fun _ _ _ => trivial) ?_
          intro _ blobs _
          refine (collectVersions_local ns objectId blobs _).bind (fun _ _ _ => trivial) ?_
          rintro _ versions ⟨suffix, grown⟩
          rw [grown]
          dsimp only [sweep]
          split
          · exact trivial
          · refine Program.Obeys.call_bind trivial (fun _ _ _ => trivial) ?_
            intro _ time _
            refine (deleteOlder_local contract.retention _ _ 0 _ (found.mono ?_)).bind
              (fun _ _ _ => trivial) fun _ _ _ => trivial
            simp only [List.append_assoc]
            exact List.subset_append_left _ _

end PruneVersions

theorem setManifestName_local (ns : NamespaceId) (blobId : BlobId) (request : SetNameRequest) :
    (setManifestName ns blobId request).Obeys (Local ns) [] fun _ _ => True := by
  refine Program.Obeys.call_bind rfl (fun _ _ _ => trivial) ?_
  intro answer found wentFound
  rcases question_eq_ok wentFound with rfl
  cases found with
  | none => exact trivial
  | some manifest => exact ⟨Or.inr ⟨blobId, manifest, by simp, rfl⟩, fun _ => trivial⟩

namespace Request

/-- Whatever the ports answer, a request stays within its namespace. -/
theorem serve_local (node : Node) (request : Request) :
    (request.serve node).Obeys (Local request.ns) [] fun _ _ => True := by
  cases request with
  | put mesh ns token ciphertext =>
      exact ((node.put mesh).execute_local ns token ciphertext).bind (fun _ _ _ => trivial)
        fun _ _ _ => trivial
  | get transport ns token blobId =>
      exact ((node.get transport).restore_local ns token blobId).bind (fun _ _ _ => trivial)
        fun _ _ _ => trivial
  | repair transport ns blobId =>
      exact ((node.repair transport).execute_local ns blobId).bind (fun _ _ _ => trivial)
        fun _ _ _ => trivial
  | prune ns objectId =>
      exact (PruneVersions.execute_local ns objectId).bind (fun _ _ _ => trivial)
        fun _ _ _ => trivial
  | delete ns token blobId =>
      exact (DeleteBackup.execute_local ns token blobId).bind (fun _ _ _ => trivial)
        fun _ _ _ => trivial
  | setName ns blobId request =>
      exact (setManifestName_local ns blobId request).bind (fun _ _ _ => trivial)
        fun _ _ _ => trivial

/-- What is known of a request's calls altogether. -/
def localRule (node : Node) (request : Request) (past : List PortExchange) (call : PortCall) :
    Prop :=
  request.rule node past call ∧ Local request.ns past call

def localRules (node : Node) (requests : List Request) (index : ℕ) (past : List PortExchange)
    (call : PortCall) : Prop :=
  ∃ request, requests[index]? = some request ∧ request.localRule node past call

theorem obedient_start_local {σ : Type} (node : Node) (requests : List Request) (first : σ) :
    System.Obedient (localRules node requests)
      (System.start first (requests.map (program node)) : System ports Failure σ) := by
  apply System.obedient_start
  intro index program found
  rw [List.getElem?_map] at found
  rcases Option.map_eq_some_iff.mp found with ⟨request, listed, rfl⟩
  refine (((request.serve_obeys node).and (request.serve_local node)).weaken ?_).bind
    (fun _ _ _ => trivial) fun _ _ _ => trivial
  exact fun past call permitted => ⟨request, listed, permitted⟩

end Request

end VaultMesh
