import VaultMesh.Coding.UrlText
import VaultMesh.RemoteStore

/-!
# When the remote store refines the store which it fronts

The path of an operation may lead to another endpoint, or to the right one with
other ids. If the answer is taken for the operation's own there is a store in which
this is noticed, so the operations which are not diverted are exactly those which
refine the store of every coordinator. Plain ids are never diverted.
-/

namespace VaultMesh

open Interaction Coding Coding.Serde Coding.Urls

/-! ## Stores in which a diverted operation is noticed -/

/-- A coordinator which blocks nobody. -/
def openCoordinator : Coordinator where
  words := plainWords
  blocked := false
  consolePage := "<!doctype html>"
  consolePage_html := rfl
  securityPage := "<!doctype html>"
  securityPage_html := rfl
  publicKeyB64 := ""
  rootPem := "-----BEGIN CERTIFICATE-----"
  rootPem_pem := by decide
  ledgerEntries := []
  chainValid := true
  blocklist := []
  resolve _ := .error .notFound
  accepted _ _ := pure ⟨200, ""⟩

def storeWorld (store : MemoryMetadataStore) : World Unit where
  store := store
  anchor := ()
  signed := []
  tick := 0

def loneContract (app : AppId) : AppContract :=
  AppContract.new app ⟨0, 0⟩ ⟨0, 0⟩ ⟨1, 1⟩

def loneManifest (ns : NamespaceId) (blobId : BlobId) : Manifest :=
  Manifest.new blobId ns ⟨1, 1⟩ [] 1 ⟨0⟩

namespace MetadataCall

variable {matching : Matching} {call : MetadataCall} {endpoint : Endpoint}

theorem remotely_of_json {state : World Unit} {json : Json} {value : call.Value}
    (asked : call.method = .get)
    (found : dispatch matching routes call.method (matching.parsePath call.path) = .ok endpoint)
    (answers : metaJson sampleEnvironment state endpoint = some json)
    (read : call.readJson json = some value) :
    ((call.remotely ⟨openCoordinator, matching⟩).run (world sampleEnvironment noAnchor) state).1 =
      .ok (.ok value) := by
  have answered : call.answer ⟨openCoordinator, matching⟩ =
      openCoordinator.serve (call.body plainWords) endpoint := answer_of_dispatch rfl found
  have response := (serve_metaJson openCoordinator (call.body plainWords) answers).1
  rw [remotely_run, answered, response, received_shaped asked, read]
  rfl

/-- A wrong result is noticed. -/
theorem not_refines_of_value {remote : RemoteMetadataStore} {env : Environment}
    {state : World Unit} {value own : call.Value}
    (told : ((call.remotely remote).run (world env noAnchor) state).1 = .ok (.ok value))
    (held : (call.locally.run (world env noAnchor) state).1 = .ok own) (other : value ≠ own) :
    ¬call.Refines remote env state := by
  rintro (⟨error, failed, _⟩ | ⟨same, ran, own'⟩)
  · rw [told] at failed
    cases failed
  · rw [ran] at told
    rw [held] at own'
    rcases Except.ok.inj (Except.ok.inj told) with rfl
    exact other (Except.ok.inj own').symm

theorem metaJson_null {store : MemoryMetadataStore} (optional : endpoint.isOptional = true)
    (noContract : ∀ app, endpoint = .metaGetContract app → store.getContract ⟨app⟩ = none)
    (noNamespace : ∀ ns, endpoint = .metaGetNamespace ns → store.getNamespace ⟨ns⟩ = none)
    (noManifest : ∀ ns blob, endpoint = .metaGetManifest ns blob →
      store.getManifest ⟨ns⟩ ⟨blob⟩ = none) :
    metaJson sampleEnvironment (storeWorld store) endpoint = some .null := by
  cases endpoint with
  | metaGetContract app =>
      simp only [metaJson, storeWorld, noContract app rfl]
      rfl
  | metaGetNamespace ns =>
      simp only [metaJson, storeWorld, noNamespace ns rfl]
      rfl
  | metaGetManifest ns blob =>
      simp only [metaJson, storeWorld, noManifest ns blob rfl]
      rfl
  | _ => cases optional

/-- A diverted read of the wrong value is noticed. -/
theorem noticed {state : World Unit} {json : Json} {value own : call.Value}
    (asked : call.method = .get)
    (found : dispatch matching routes call.method (matching.parsePath call.path) = .ok endpoint)
    (answers : metaJson sampleEnvironment state endpoint = some json)
    (read : call.readJson json = some value)
    (held : (call.locally.run (world sampleEnvironment noAnchor) state).1 = .ok own)
    (other : value ≠ own) :
    ¬call.Refines ⟨openCoordinator, matching⟩ sampleEnvironment state :=
  not_refines_of_value (remotely_of_json asked found answers read) held other

theorem getContract_noticed {app : AppId}
    (found : dispatch matching routes .get (matching.parsePath (getContract app).path) =
      .ok endpoint)
    (other : endpoint ≠ (getContract app).home) (optional : endpoint.isOptional = true) :
    ¬(getContract app).Refines ⟨openCoordinator, matching⟩ sampleEnvironment
      (storeWorld (MemoryMetadataStore.empty.registerApp (loneContract app))) := by
  refine noticed rfl found (metaJson_null optional ?_ (fun _ _ => rfl) fun _ _ _ => rfl) rfl rfl ?_
  · rintro name rfl
    apply MemoryMetadataStore.getContract_registerApp_of_ne
    rintro rfl
    exact other rfl
  · intro same
    cases same.trans (AList.lookup_insert _)

theorem getNamespace_noticed {id : NamespaceId}
    (found : dispatch matching routes .get (matching.parsePath (getNamespace id).path) =
      .ok endpoint)
    (other : endpoint ≠ (getNamespace id).home) (optional : endpoint.isOptional = true) :
    ¬(getNamespace id).Refines ⟨openCoordinator, matching⟩ sampleEnvironment
      (storeWorld (MemoryMetadataStore.empty.createNamespace ⟨id, ⟨"app"⟩⟩)) := by
  refine noticed rfl found (metaJson_null optional (fun _ _ => rfl) ?_ fun _ _ _ => rfl) rfl rfl ?_
  · rintro name rfl
    apply MemoryMetadataStore.getNamespace_createNamespace_of_ne
    rintro rfl
    exact other rfl
  · intro same
    cases same.trans (AList.lookup_insert _)

theorem getManifest_noticed {ns : NamespaceId} {blobId : BlobId}
    (found : dispatch matching routes .get (matching.parsePath (getManifest ns blobId).path) =
      .ok endpoint)
    (other : endpoint ≠ (getManifest ns blobId).home) (optional : endpoint.isOptional = true) :
    ¬(getManifest ns blobId).Refines ⟨openCoordinator, matching⟩ sampleEnvironment
      (storeWorld (MemoryMetadataStore.empty.putManifest (loneManifest ns blobId))) := by
  refine noticed rfl found (metaJson_null optional (fun _ _ => rfl) (fun _ _ => rfl) ?_) rfl rfl ?_
  · rintro name blob rfl
    apply MemoryMetadataStore.getManifest_putManifest_of_ne
    rintro ⟨⟩
    exact other rfl
  · intro same
    cases same.trans (MemoryMetadataStore.getManifest_putManifest_self _ (loneManifest ns blobId))

theorem append_ne_self (text : String) {suffix : String} (nonempty : suffix ≠ "") :
    text ++ suffix ≠ text := by
  intro same
  apply nonempty
  simpa using same

theorem getNamespace_noticed_of_namespaces {id : NamespaceId}
    (found : dispatch matching routes .get (matching.parsePath (getNamespace id).path) =
      .ok .metaListNamespaces) :
    ¬(getNamespace id).Refines ⟨openCoordinator, matching⟩ sampleEnvironment
      (storeWorld ((MemoryMetadataStore.empty.createNamespace ⟨id, ⟨"app"⟩⟩).createNamespace
        ⟨⟨id.value ++ "x"⟩, ⟨"app"⟩⟩)) := by
  have fresh : (⟨id.value ++ "x"⟩ : NamespaceId) ≠ id := by
    intro same
    exact append_ne_self id.value (by decide) (congrArg NamespaceId.value same)
  have held : ((MemoryMetadataStore.empty.createNamespace ⟨id, ⟨"app"⟩⟩).createNamespace
      ⟨⟨id.value ++ "x"⟩, ⟨"app"⟩⟩).getNamespace id = some ⟨id, ⟨"app"⟩⟩ := by
    rw [MemoryMetadataStore.getNamespace_createNamespace_of_ne _ fresh.symm]
    exact MemoryMetadataStore.getNamespace_createNamespace_self _ _
  have listed : ((MemoryMetadataStore.empty.createNamespace ⟨id, ⟨"app"⟩⟩).createNamespace
      ⟨⟨id.value ++ "x"⟩, ⟨"app"⟩⟩).listNamespaces = [⟨id.value ++ "x"⟩, id] := by
    simp [MemoryMetadataStore.listNamespaces, MemoryMetadataStore.createNamespace,
      MemoryMetadataStore.empty, fresh.symm]
  refine noticed rfl found (congrArg (fun ids => some (toJson ids)) listed)
    (congrArg (Option.map some) (namespace_of_two_texts _ _)) (congrArg Except.ok held) ?_
  intro same
  exact fresh (congrArg Namespace.id (Option.some.inj same))

theorem getNamespace_noticed_of_blobs {id : NamespaceId} {ns : String}
    (found : dispatch matching routes .get (matching.parsePath (getNamespace id).path) =
      .ok (.metaListBlobs ns)) :
    ¬(getNamespace id).Refines ⟨openCoordinator, matching⟩ sampleEnvironment
      (storeWorld ((MemoryMetadataStore.empty.putManifest (loneManifest ⟨ns⟩ ⟨"a"⟩)).putManifest
        (loneManifest ⟨ns⟩ ⟨"b"⟩))) := by
  have listed : ((MemoryMetadataStore.empty.putManifest (loneManifest ⟨ns⟩ ⟨"a"⟩)).putManifest
      (loneManifest ⟨ns⟩ ⟨"b"⟩)).listBlobs ⟨ns⟩ = [⟨"b"⟩, ⟨"a"⟩] := by
    simp [MemoryMetadataStore.listBlobs, MemoryMetadataStore.putManifest,
      MemoryMetadataStore.empty, loneManifest, Manifest.new]
  exact noticed rfl found (congrArg (fun ids => some (toJson ids)) listed)
    (congrArg (Option.map some) (namespace_of_two_texts _ _)) rfl (by rintro ⟨⟩)

theorem usage_loneManifest (ns : NamespaceId) (blobId : BlobId) :
    (MemoryMetadataStore.empty.putManifest (loneManifest ns blobId)).namespaceUsage ns =
      ⟨1, 1⟩ := by
  simp [MemoryMetadataStore.namespaceUsage, MemoryMetadataStore.putManifest,
    MemoryMetadataStore.empty, MemoryMetadataStore.countUsage, loneManifest, Manifest.new]

theorem usage_loneManifest_of_ne {ns other : NamespaceId} (apart : other ≠ ns) (blobId : BlobId) :
    (MemoryMetadataStore.empty.putManifest (loneManifest ns blobId)).namespaceUsage other =
      ⟨0, 0⟩ := by
  simp [MemoryMetadataStore.namespaceUsage, MemoryMetadataStore.putManifest,
    MemoryMetadataStore.empty, MemoryMetadataStore.countUsage, loneManifest, Manifest.new,
    apart.symm]

theorem listBlobs_loneManifest (ns : NamespaceId) (blobId : BlobId) :
    (MemoryMetadataStore.empty.putManifest (loneManifest ns blobId)).listBlobs ns = [blobId] := by
  simp [MemoryMetadataStore.listBlobs, MemoryMetadataStore.putManifest,
    MemoryMetadataStore.empty, loneManifest, Manifest.new]

theorem listBlobs_loneManifest_of_ne {ns other : NamespaceId} (apart : other ≠ ns)
    (blobId : BlobId) :
    (MemoryMetadataStore.empty.putManifest (loneManifest ns blobId)).listBlobs other = [] := by
  simp [MemoryMetadataStore.listBlobs, MemoryMetadataStore.putManifest,
    MemoryMetadataStore.empty, loneManifest, Manifest.new, apart.symm]

theorem namespaceUsage_noticed {id : NamespaceId} {ns : String}
    (found : dispatch matching routes .get (matching.parsePath (namespaceUsage id).path) =
      .ok (.metaNamespaceUsage ns)) (other : ns ≠ id.value) :
    ¬(namespaceUsage id).Refines ⟨openCoordinator, matching⟩ sampleEnvironment
      (storeWorld (MemoryMetadataStore.empty.putManifest (loneManifest id ⟨"b"⟩))) := by
  have apart : (⟨ns⟩ : NamespaceId) ≠ id := fun same => other (congrArg NamespaceId.value same)
  refine noticed rfl found
    (congrArg (fun usage => some (toJson usage)) (usage_loneManifest_of_ne apart _))
    (fromJson_toJson _) (congrArg Except.ok (usage_loneManifest id _)) ?_
  intro same
  cases congrArg NamespaceUsage.objects same

theorem listBlobs_noticed {id : NamespaceId} {ns : String}
    (found : dispatch matching routes .get (matching.parsePath (listBlobs id).path) =
      .ok (.metaListBlobs ns)) (other : ns ≠ id.value) :
    ¬(listBlobs id).Refines ⟨openCoordinator, matching⟩ sampleEnvironment
      (storeWorld (MemoryMetadataStore.empty.putManifest (loneManifest id ⟨"b"⟩))) := by
  have apart : (⟨ns⟩ : NamespaceId) ≠ id := fun same => other (congrArg NamespaceId.value same)
  exact noticed rfl found
    (congrArg (fun ids => some (toJson ids)) (listBlobs_loneManifest_of_ne apart _))
    (fromJson_toJson _) (congrArg Except.ok (listBlobs_loneManifest id _))
    (by rintro ⟨⟩)

theorem listBlobs_noticed_of_namespaces {id : NamespaceId}
    (found : dispatch matching routes .get (matching.parsePath (listBlobs id).path) =
      .ok .metaListNamespaces) :
    ¬(listBlobs id).Refines ⟨openCoordinator, matching⟩ sampleEnvironment
      (storeWorld (MemoryMetadataStore.empty.putManifest (loneManifest id ⟨"b"⟩))) :=
  noticed rfl found rfl rfl (congrArg Except.ok (listBlobs_loneManifest id _))
    (by rintro ⟨⟩)

/-- A deletion under other ids succeeds, and the manifest stays. -/
theorem deleteManifest_noticed {ns : NamespaceId} {blobId : BlobId} {ns' blob' : String}
    (found : dispatch matching routes .post (matching.parsePath (deleteManifest ns blobId).path) =
      .ok (.metaDeleteManifest ns' blob'))
    (other : (⟨ns'⟩, ⟨blob'⟩) ≠ (ns, blobId)) :
    ¬(deleteManifest ns blobId).Refines ⟨openCoordinator, matching⟩ sampleEnvironment
      (storeWorld (MemoryMetadataStore.empty.putManifest (loneManifest ns blobId))) := by
  have answered : (deleteManifest ns blobId).answer ⟨openCoordinator, matching⟩ =
      openCoordinator.serve ((deleteManifest ns blobId).body plainWords)
        (.metaDeleteManifest ns' blob') :=
    answer_of_dispatch rfl found
  have kept := MemoryMetadataStore.getManifest_deleteManifest_of_ne
    (MemoryMetadataStore.empty.putManifest (loneManifest ns blobId)) other.symm
  rintro (⟨error, failed, _⟩ | ⟨value, ran, _⟩)
  · rw [remotely_run, answered] at failed
    cases failed
  · rw [remotely_run, answered] at ran
    have stores := congrArg (fun result => (result.2.store).getManifest ns blobId) ran
    have gone := MemoryMetadataStore.getManifest_deleteManifest_self
      (MemoryMetadataStore.empty.putManifest (loneManifest ns blobId)) ns blobId
    have held := MemoryMetadataStore.getManifest_putManifest_self MemoryMetadataStore.empty
      (loneManifest ns blobId)
    cases (held.symm.trans kept.symm).trans (stores.trans gone)

/-- A diverted operation is noticed in some store. -/
theorem exists_noticed (diverted : call.Diverted matching) :
    ∃ state, ¬call.Refines ⟨openCoordinator, matching⟩ sampleEnvironment state := by
  rcases diverted with ⟨endpoint, found, other, read⟩
  cases call with
  | getContract app => exact ⟨_, getContract_noticed found other read⟩
  | getNamespace id =>
      rcases Bool.or_eq_true_iff.mp read with optional | listing
      · exact ⟨_, getNamespace_noticed found other optional⟩
      · cases endpoint with
        | metaListNamespaces => exact ⟨_, getNamespace_noticed_of_namespaces found⟩
        | metaListBlobs ns => exact ⟨_, getNamespace_noticed_of_blobs found⟩
        | _ => cases listing
  | namespaceUsage id =>
      cases endpoint with
      | metaNamespaceUsage ns =>
          refine ⟨_, namespaceUsage_noticed found ?_⟩
          rintro rfl
          exact other rfl
      | _ => cases read
  | getManifest ns blobId => exact ⟨_, getManifest_noticed found other read⟩
  | listBlobs id =>
      cases endpoint with
      | metaListNamespaces => exact ⟨_, listBlobs_noticed_of_namespaces found⟩
      | metaListBlobs ns =>
          refine ⟨_, listBlobs_noticed found ?_⟩
          rintro rfl
          exact other rfl
      | _ => cases read
  | deleteManifest ns blobId =>
      cases endpoint with
      | metaDeleteManifest ns' blob' =>
          refine ⟨_, deleteManifest_noticed found ?_⟩
          rintro ⟨⟩
          exact other rfl
      | _ => cases read

/-- An operation which is not diverted fails without effect or does what the store does. -/
theorem refines_of_not_diverted (remote : RemoteMetadataStore)
    (direct : ¬call.Diverted remote.matching) (env : Environment) (state : World Unit) :
    call.Refines remote env state := by
  cases admitted : remote.coordinator.blocked with
  | true => exact refines_of_blocked admitted
  | false =>
      cases found : dispatch remote.matching routes call.method
        (remote.matching.parsePath call.path) with
      | error status => exact refines_of_unrouted admitted found
      | ok endpoint =>
          by_cases own : endpoint = call.home
          · rw [own] at found
            exact refines_of_home admitted found
          · apply refines_of_not_reads admitted found
            apply Bool.eq_false_iff.mpr
            intro read
            exact direct ⟨endpoint, found, own, read⟩

/--
An operation of the remote store refines the same operation of every coordinator's
store, in every state of it, exactly if its path is not diverted.
-/
theorem remote_store_refines_iff (matching : Matching) (call : MetadataCall) :
    (∀ (coordinator : Coordinator) (env : Environment) (state : World Unit),
        call.Refines ⟨coordinator, matching⟩ env state) ↔
      ¬call.Diverted matching := by
  constructor
  · intro refines diverted
    rcases exists_noticed diverted with ⟨state, noticed⟩
    exact noticed (refines openCoordinator sampleEnvironment state)
  · intro direct coordinator env state
    exact refines_of_not_diverted ⟨coordinator, matching⟩ direct env state

/-! ## Another manifest is removed -/

/-- Parameters stand for the segments which are not empty. -/
def nonEmptySegments : Matching :=
  Urls.standard (fun segment _ => !segment.isEmpty) fun segment _ nonempty => by
    simpa using nonempty

/-- The id `b%31` is decoded to `b1`, so deleting it removes the manifest of `b1`. -/
theorem deletes_another_manifest :
    ((storeWorld (MemoryMetadataStore.empty.putManifest
        (loneManifest ⟨"ns-1"⟩ ⟨"b1"⟩))).store.getManifest ⟨"ns-1"⟩ ⟨"b1"⟩).isSome ∧
      (((deleteManifest ⟨"ns-1"⟩ ⟨"b%31"⟩).remotely ⟨openCoordinator, nonEmptySegments⟩).run
        (world sampleEnvironment noAnchor)
        (storeWorld (MemoryMetadataStore.empty.putManifest
          (loneManifest ⟨"ns-1"⟩ ⟨"b1"⟩)))).1 = .ok (.ok ()) ∧
      (((deleteManifest ⟨"ns-1"⟩ ⟨"b%31"⟩).remotely ⟨openCoordinator, nonEmptySegments⟩).run
        (world sampleEnvironment noAnchor)
        (storeWorld (MemoryMetadataStore.empty.putManifest
          (loneManifest ⟨"ns-1"⟩ ⟨"b1"⟩)))).2.store.getManifest ⟨"ns-1"⟩ ⟨"b1"⟩ = none ∧
      ¬(deleteManifest ⟨"ns-1"⟩ ⟨"b%31"⟩).Refines ⟨openCoordinator, nonEmptySegments⟩
        sampleEnvironment (storeWorld (MemoryMetadataStore.empty.putManifest
          (loneManifest ⟨"ns-1"⟩ ⟨"b1"⟩))) := by
  have found : dispatch nonEmptySegments routes .post
      (nonEmptySegments.parsePath (deleteManifest ⟨"ns-1"⟩ ⟨"b%31"⟩).path) =
        .ok (.metaDeleteManifest "ns-1" "b1") := by
    decide +kernel
  have answered : (deleteManifest ⟨"ns-1"⟩ ⟨"b%31"⟩).answer ⟨openCoordinator, nonEmptySegments⟩ =
      openCoordinator.serve ((deleteManifest ⟨"ns-1"⟩ ⟨"b%31"⟩).body plainWords)
        (.metaDeleteManifest "ns-1" "b1") :=
    answer_of_dispatch rfl found
  rw [remotely_run, answered]
  refine ⟨rfl, rfl, rfl, ?_⟩
  rintro (⟨error, failed, _⟩ | ⟨value, ran, _⟩)
  · rw [remotely_run, answered] at failed
    cases failed
  · rw [remotely_run, answered] at ran
    have stores := congrArg (fun result => (result.2.store.getManifest ⟨"ns-1"⟩ ⟨"b1"⟩).isSome) ran
    cases stores

/-! ## Plain ids -/

def ids : MetadataCall → List String
  | .getContract app => [app.value]
  | .getNamespace id => [id.value]
  | .namespaceUsage id => [id.value]
  | .getManifest ns blobId => [ns.value, blobId.value]
  | .listBlobs ns => [ns.value]
  | .deleteManifest ns blobId => [ns.value, blobId.value]

/-- The segments which the path is written with. -/
def segments : MetadataCall → List String
  | .getContract app => ["v1", "meta", "contracts", app.value]
  | .getNamespace id => ["v1", "meta", "namespaces", id.value]
  | .namespaceUsage id => ["v1", "meta", "namespaces", id.value, "usage"]
  | .getManifest ns blobId => ["v1", "meta", "namespaces", ns.value, "manifests", blobId.value]
  | .listBlobs ns => ["v1", "meta", "namespaces", ns.value, "blobs"]
  | .deleteManifest ns blobId =>
      ["v1", "meta", "namespaces", ns.value, "manifests", blobId.value, "delete"]

theorem path_toList (call : MetadataCall) : call.path.toList = joined call.segments := by
  have contracts : "/v1/meta/contracts/".toList = joined ["v1", "meta", "contracts", ""] := by
    decide
  have namespaces : "/v1/meta/namespaces/".toList = joined ["v1", "meta", "namespaces", ""] := by
    decide
  have usage : "/usage".toList = joined ["usage"] := by decide
  have blobs : "/blobs".toList = joined ["blobs"] := by decide
  have manifests : "/manifests/".toList = joined ["manifests", ""] := by decide
  have delete : "/delete".toList = joined ["delete"] := by decide
  cases call
  all_goals
    unfold path segments
    simp only [String.toList_append, contracts, namespaces, usage, blobs, manifests, delete]
    simp [joined]

/-- The words between the ids. -/
def pathWords : List String :=
  ["v1", "meta", "contracts", "namespaces", "usage", "blobs", "manifests", "delete"]

theorem isWord_of_mem_pathWords {word : String} (listed : word ∈ pathWords) : IsWord word := by
  have all : ∀ word ∈ pathWords, IsWord word := by
    decide
  exact all word listed

theorem plain_segments (plain : ∀ id ∈ call.ids, Plain id) :
    ∀ segment ∈ call.segments, Plain segment := by
  intro segment listed
  have known : segment ∈ call.ids ∨ segment ∈ pathWords := by
    cases call
    all_goals
      simp only [segments, ids, pathWords, List.mem_cons] at listed ⊢
      tauto
  rcases known with known | known
  · exact plain segment known
  · exact (isWord_of_mem_pathWords known).plain

/-- Plain ids lead to the operation's own endpoint. -/
theorem dispatch_of_plain (matching : Matching) (plain : ∀ id ∈ call.ids, Plain id) :
    dispatch matching routes call.method (matching.parsePath call.path) = .ok call.home := by
  have written : call.segments ≠ [] := by
    cases call <;> rintro ⟨⟩
  have decoded : ∀ id ∈ call.ids, matching.decode (matching.encode id) = some id := by
    intro id carried
    exact matching.decode_encode id (plain id carried)
  have captured : ∀ id ∈ call.ids, ∀ later,
      matching.captures (matching.encode id) later = true := by
    intro id carried later
    exact matching.captures_of_ne_nil _ later (matching.encode_ne_nil id (plain id carried))
  have words : ∀ word ∈ pathWords, matching.encode word = utf8 word := by
    intro word listed
    exact matching.encode_of_isWord (isWord_of_mem_pathWords listed)
  rw [matching.parsePath_of_plain _ _ written (plain_segments plain) call.path_toList]
  cases call
  all_goals
    simp only [ids, List.mem_cons, List.not_mem_nil, or_false, forall_eq_or_imp, forall_eq]
      at decoded captured
    simp (disch := decide) only [segments, List.map_cons, List.map_nil, words]
    simp [dispatch, routes, capture, utf8_injective.eq_iff, captured, decoded, method, home,
      onePath, twoPath]

theorem not_diverted_of_plain (matching : Matching) (plain : ∀ id ∈ call.ids, Plain id) :
    ¬call.Diverted matching := by
  rintro ⟨endpoint, found, other, _⟩
  rw [dispatch_of_plain matching plain] at found
  exact other (Except.ok.inj found).symm

end MetadataCall

end VaultMesh
