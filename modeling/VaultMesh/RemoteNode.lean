import VaultMesh.Confinement
import VaultMesh.Interaction.Simulation
import VaultMesh.KnownIds
import VaultMesh.RemoteRefinement

/-!
# A node whose metadata is at the coordinator

Every metadata call of a node is one HTTP request to the coordinator, which makes one call of
its own store. As long as all ids are plain, the node cannot tell this from a store of its
own, whatever it serves and in whatever order its calls come, but for one thing: a manifest
whose JSON is longer than what the coordinator's extractor reads is refused. That all ids stay
plain is an invariant, since a node asks about known ids only.
-/

namespace VaultMesh

open Interaction Coding Coding.Serde Coding.Urls

namespace Coordinator

/-- `put_manifest`, once the body has its fields. -/
def acceptManifest (server : Coordinator) (json : Json) : UseCase Response :=
  match fromJson json with
  | none => pure ⟨422, server.words.rejection (server.words.toText json)⟩
  | some manifest => do return emptyResponse server.words (← mapErr (Meta.putManifest manifest))

/-- The coordinator with its handler for manifests. -/
def storing (server : Coordinator) : Coordinator :=
  { server with
    accepted := fun endpoint json =>
      match endpoint with
      | .metaPutManifest => server.acceptManifest json
      | endpoint => server.accepted endpoint json }

end Coordinator

namespace RemoteMetadataStore

variable (remote : RemoteMetadataStore)

/-! ## The store of the node -/

def registerApp (_ : AppContract) : PortResult Unit :=
  .error (.unavailable
    "app registration is a control-plane operation, not available to the node-agent")

def createNamespace (ns : Namespace) : UseCase (PortResult Unit) :=
  remote.post "/v1/meta/namespaces" (toJson ns)

def listNamespaces : UseCase (PortResult (List NamespaceId)) :=
  remote.get "/v1/meta/namespaces"

def putManifest (manifest : Manifest) : UseCase (PortResult Unit) :=
  remote.post "/v1/meta/manifests" (toJson manifest)

variable {A : Type}

/-- Run at the coordinator what a call of the node sends there; the node's anchor is elsewhere.
A program of the remote store always ends with an answer. -/
def relay {α : Type} (env : Environment) (program : UseCase (PortResult α)) (state : World A) :
    PortResult α × World A :=
  let ran := program.run (world env noAnchor) { state with anchor := () }
  match ran.1 with
  | .ok answer => (answer, { ran.2 with anchor := state.anchor })
  | .error (.port error) => (.error error, { ran.2 with anchor := state.anchor })
  | .error (.panicked message) =>
      (.error (.unavailable message), { ran.2 with anchor := state.anchor })

end RemoteMetadataStore

/-- What a node is answered which has its metadata at the coordinator. -/
def remoteWorld {A : Type} (remote : RemoteMetadataStore) (env : Environment)
    (anchors : AnchorModel A) : Handler ports (World A) where
  answer state
    | .registerApp contract => (RemoteMetadataStore.registerApp contract, state)
    | .getContract app => RemoteMetadataStore.relay env (remote.getContract app) state
    | .createNamespace ns => RemoteMetadataStore.relay env (remote.createNamespace ns) state
    | .getNamespace id => RemoteMetadataStore.relay env (remote.getNamespace id) state
    | .listNamespaces => RemoteMetadataStore.relay env remote.listNamespaces state
    | .namespaceUsage id => RemoteMetadataStore.relay env (remote.namespaceUsage id) state
    | .putManifest manifest => RemoteMetadataStore.relay env (remote.putManifest manifest) state
    | .getManifest ns blobId =>
        RemoteMetadataStore.relay env (remote.getManifest ns blobId) state
    | .listBlobs ns => RemoteMetadataStore.relay env (remote.listBlobs ns) state
    | .deleteManifest ns blobId =>
        RemoteMetadataStore.relay env (remote.deleteManifest ns blobId) state
    | request => (world env anchors).answer state request

/-- What a node is answered which has a store of its own that refuses long manifests. -/
def limitedWorld {A : Type} (remote : RemoteMetadataStore) (env : Environment)
    (anchors : AnchorModel A) : Handler ports (World A) where
  answer state
    | .putManifest manifest =>
        if bodyLimit < (utf8 (remote.coordinator.words.toText (toJson manifest))).length then
          (.error (remote.statusError 413), state)
        else
          (world env anchors).answer state (.putManifest manifest)
    | request => (world env anchors).answer state request

/-! ## One call -/

/-- A call whose ids are plain. -/
def AsksPlain : PortCall → Prop
  | .getContract app => Plain app.value
  | .getNamespace ns | .namespaceUsage ns | .listBlobs ns => Plain ns.value
  | .getManifest ns blobId | .deleteManifest ns blobId => Plain ns.value ∧ Plain blobId.value
  | .sign _ | .registerApp _ | .createNamespace _ => False
  | _ => True

section Calls

variable {A : Type} {remote : RemoteMetadataStore} {env : Environment} {anchors : AnchorModel A}
  {state : World A}

namespace MetadataCall

variable {call : MetadataCall} {host : World Unit}

theorem remotely_of_answer (asked : call.method = .get) {value : call.Value} {json : Json}
    (answered : (call.answer remote).run (world env noAnchor) host =
      (.ok (remote.coordinator.shaped json), (call.locally.run (world env noAnchor) host).2))
    (read : call.readJson json = some value) :
    (call.remotely remote).run (world env noAnchor) host =
      (.ok (.ok value), (call.locally.run (world env noAnchor) host).2) := by
  rw [remotely_run, answered, received_shaped asked, read]
  rfl

/-- With plain ids, a call over HTTP has the answer and the effect of the call itself. -/
theorem remotely_of_plain (admitted : remote.coordinator.blocked = false)
    (plain : ∀ id ∈ call.ids, Plain id) :
    (call.remotely remote).run (world env noAnchor) host =
      ((call.locally.run (world env noAnchor) host).1.map .ok,
        (call.locally.run (world env noAnchor) host).2) := by
  have answered := answer_of_dispatch admitted (dispatch_of_plain remote.matching plain)
  cases call with
  | getContract app =>
      exact remotely_of_answer rfl (by rw [answered]; rfl) (fromJson_toJson _)
  | getNamespace id =>
      exact remotely_of_answer rfl (by rw [answered]; rfl) (fromJson_toJson _)
  | namespaceUsage id =>
      exact remotely_of_answer rfl (by rw [answered]; rfl) (fromJson_toJson _)
  | getManifest ns blobId =>
      exact remotely_of_answer rfl (by rw [answered]; rfl) (fromJson_toJson _)
  | listBlobs ns =>
      exact remotely_of_answer rfl (by rw [answered]; rfl) (fromJson_toJson _)
  | deleteManifest ns blobId =>
      rw [remotely_run, answered]
      rfl

end MetadataCall

namespace RemoteMetadataStore

theorem relay_of_ok {α : Type} {program : UseCase (PortResult α)} {answer : PortResult α}
    {last : World Unit}
    (ran : program.run (world env noAnchor) { state with anchor := () } = (.ok answer, last)) :
    relay env program state = (answer, { last with anchor := state.anchor }) := by
  simp only [relay, ran]

theorem dispatch_manifests (matching : Matching) :
    dispatch matching routes .post (matching.parsePath "/v1/meta/manifests") =
      .ok .metaPutManifest := by
  rw [matching.parsePath_of_words ["v1", "meta", "manifests"] (by decide) (by decide) (by decide)]
  rfl

theorem dispatch_namespaces (matching : Matching) :
    dispatch matching routes .get (matching.parsePath "/v1/meta/namespaces") =
      .ok .metaListNamespaces := by
  rw [matching.parsePath_of_words ["v1", "meta", "namespaces"] (by decide) (by decide) (by decide)]
  rfl

/-- A posted manifest is stored, unless it is longer than what is read. -/
theorem putManifest_run {server : Coordinator} {matching : Matching} {host : World Unit}
    (admitted : server.blocked = false) (manifest : Manifest) :
    (putManifest ⟨server.storing, matching⟩ manifest).run (world env noAnchor) host =
      if bodyLimit < (utf8 (server.storing.words.toText (toJson manifest))).length then
        (.ok (.error (statusError ⟨server.storing, matching⟩ 413)), host)
      else
        (.ok (.ok ()), host.after noAnchor (.putManifest manifest)) := by
  have fields : entries Endpoint.metaPutManifest.bodyFields (toJson manifest) = some
      ([toJson manifest.blobId, toJson manifest.ns, toJson manifest.erasure,
        toJson manifest.shards, toJson manifest.ciphertextLen, toJson manifest.createdAt,
        toJson manifest.nameEnc, toJson manifest.objectId].map some) :=
    entries_record (by decide) rfl
  have served : server.storing.respond matching .post "/v1/meta/manifests"
      (server.storing.words.toText (toJson manifest)) =
        server.storing.post .metaPutManifest (server.storing.words.toText (toJson manifest)) := by
    rw [Coordinator.respond, dispatch_manifests, if_neg (by simp [Coordinator.storing, admitted])]
    rfl
  rw [putManifest, post_run, served, Coordinator.post]
  split
  · rfl
  · rw [server.storing.words.parseFront_toText]
    dsimp only
    rw [fields]
    simp only [Coordinator.storing, Coordinator.acceptManifest, fromJson_toJson]
    rfl

theorem listNamespaces_run {host : World Unit} (admitted : remote.coordinator.blocked = false) :
    remote.listNamespaces.run (world env noAnchor) host =
      (.ok (.ok (env.namespaceOrder host.tick host.store.listNamespaces)),
        host.after noAnchor .listNamespaces) := by
  have served : remote.coordinator.respond remote.matching .get "/v1/meta/namespaces" "" =
      remote.coordinator.serve "" .metaListNamespaces := by
    rw [Coordinator.respond, dispatch_namespaces, if_neg (by simp [admitted])]
  have heard : remote.heardGet (.ok (remote.coordinator.shaped (toJson
      (env.namespaceOrder host.tick host.store.listNamespaces)))) =
        .ok (env.namespaceOrder host.tick host.store.listNamespaces) := by
    rw [heardGet_shaped, fromJson_toJson]
    rfl
  rw [listNamespaces, get_run, served, ← heard]
  rfl

end RemoteMetadataStore

theorem limitedWorld_putManifest (remote : RemoteMetadataStore) (env : Environment)
    (anchors : AnchorModel A) (state : World A) (manifest : Manifest) :
    (limitedWorld remote env anchors).answer state (.putManifest manifest) =
      if bodyLimit < (utf8 (remote.coordinator.words.toText (toJson manifest))).length then
        (.error (remote.statusError 413), state)
      else
        (world env anchors).answer state (.putManifest manifest) := by
  dsimp only [limitedWorld]

/-- With plain ids, the coordinator's store answers as a store of the node's own would. -/
theorem remoteWorld_answer {server : Coordinator} {matching : Matching}
    (admitted : server.blocked = false) {call : PortCall} (plain : AsksPlain call) :
    (remoteWorld ⟨server.storing, matching⟩ env anchors).answer state call =
      (limitedWorld ⟨server.storing, matching⟩ env anchors).answer state call := by
  have admittedStoring : (⟨server.storing, matching⟩ : RemoteMetadataStore).coordinator.blocked =
      false := admitted
  have relayed : ∀ asked : MetadataCall, (∀ id ∈ asked.ids, Plain id) →
      (asked.remotely ⟨server.storing, matching⟩).run (world env noAnchor)
          { state with anchor := () } =
        ((asked.locally.run (world env noAnchor) { state with anchor := () }).1.map .ok,
          (asked.locally.run (world env noAnchor) { state with anchor := () }).2) :=
    fun asked allPlain => MetadataCall.remotely_of_plain admittedStoring allPlain
  cases call with
  | getContract app =>
      exact RemoteMetadataStore.relay_of_ok
        (relayed (.getContract app) (by simpa [MetadataCall.ids, AsksPlain] using plain))
  | getNamespace id =>
      exact RemoteMetadataStore.relay_of_ok
        (relayed (.getNamespace id) (by simpa [MetadataCall.ids, AsksPlain] using plain))
  | namespaceUsage id =>
      exact RemoteMetadataStore.relay_of_ok
        (relayed (.namespaceUsage id) (by simpa [MetadataCall.ids, AsksPlain] using plain))
  | getManifest ns blobId =>
      exact RemoteMetadataStore.relay_of_ok
        (relayed (.getManifest ns blobId) (by simpa [MetadataCall.ids, AsksPlain] using plain))
  | listBlobs ns =>
      exact RemoteMetadataStore.relay_of_ok
        (relayed (.listBlobs ns) (by simpa [MetadataCall.ids, AsksPlain] using plain))
  | deleteManifest ns blobId =>
      exact RemoteMetadataStore.relay_of_ok
        (relayed (.deleteManifest ns blobId) (by simpa [MetadataCall.ids, AsksPlain] using plain))
  | listNamespaces =>
      exact RemoteMetadataStore.relay_of_ok
        (RemoteMetadataStore.listNamespaces_run admittedStoring)
  | putManifest manifest =>
      have posted : (RemoteMetadataStore.putManifest ⟨server.storing, matching⟩ manifest).run
          (world env noAnchor) { state with anchor := () } =
            if bodyLimit < (utf8 (server.storing.words.toText (toJson manifest))).length then
              (.ok (.error (RemoteMetadataStore.statusError ⟨server.storing, matching⟩ 413)),
                { state with anchor := () })
            else
              (.ok (.ok ()), World.after noAnchor { state with anchor := () }
                (.putManifest manifest)) :=
        RemoteMetadataStore.putManifest_run admitted manifest
      rw [limitedWorld_putManifest]
      split at posted
      · next long =>
          rw [if_pos long]
          exact RemoteMetadataStore.relay_of_ok posted
      · next short =>
          rw [if_neg short]
          exact RemoteMetadataStore.relay_of_ok posted
  | sign _ | registerApp _ | createNamespace _ => exact plain.elim
  | _ => rfl

end Calls

/-! ## Plain ids -/

/-- A store which holds plain ids only. -/
structure PlainStore (store : MemoryMetadataStore) : Prop where
  owners : ∀ ns owned, store.getNamespace ns = some owned → Plain owned.appId.value
  namespaces : ∀ ns ∈ store.listNamespaces, Plain ns.value
  blobs : ∀ ns blobId manifest, store.getManifest ns blobId = some manifest →
    Plain blobId.value ∧ Plain manifest.blobId.value

/-- An answer which tells plain ids only. -/
def PlainAnswer : PortExchange → Prop
  | ⟨.newId kind, id⟩ => kind = "blob" → Plain id
  | ⟨.getNamespace _, answer⟩ => ∀ owned, answer = .ok (some owned) → Plain owned.appId.value
  | ⟨.listNamespaces, answer⟩ =>
      ∀ namespaces, answer = .ok namespaces → ∀ ns ∈ namespaces, Plain ns.value
  | ⟨.listBlobs _, answer⟩ =>
      ∀ blobs, answer = .ok blobs → ∀ blobId ∈ blobs, Plain blobId.value
  | ⟨.getManifest _ _, answer⟩ =>
      ∀ manifest, answer = .ok (some manifest) → Plain manifest.blobId.value
  | _ => True

section Plainly

variable {A : Type} {remote : RemoteMetadataStore} {env : Environment} {anchors : AnchorModel A}
  {state : World A} {trace : Trace} {ids : List String} {past : List PortExchange}
  {index : ℕ} {call : PortCall}

/-- What is known is plain, if what was given and told is. -/
theorem Known.plain {id : String} (known : Known ids past id) (given : ∀ id ∈ ids, Plain id)
    (told : ∀ made ∈ past, PlainAnswer made) : Plain id := by
  cases known with
  | given listed => exact given id listed
  | drawn answered => exact told _ answered rfl
  | owner answered => exact told _ answered _ rfl
  | ofNamespace answered listed => exact told _ answered _ rfl _ listed
  | ofBlob answered listed => exact told _ answered _ rfl _ listed
  | ofManifest answered => exact told _ answered _ rfl

theorem AsksKnown.plain (asks : AsksKnown ids past call) (given : ∀ id ∈ ids, Plain id)
    (told : ∀ made ∈ past, PlainAnswer made) : AsksPlain call := by
  cases call with
  | getContract app => exact asks.plain given told
  | getNamespace ns => exact asks.plain given told
  | namespaceUsage ns => exact asks.plain given told
  | listBlobs ns => exact asks.plain given told
  | getManifest ns blobId => exact ⟨asks.1.plain given told, asks.2.plain given told⟩
  | deleteManifest ns blobId => exact ⟨asks.1.plain given told, asks.2.plain given told⟩
  | sign _ | registerApp _ | createNamespace _ => exact asks.elim
  | _ => exact trivial

theorem PlainStore.after {store : MemoryMetadataStore} (plain : PlainStore store)
    (asks : AsksKnown ids past call) (given : ∀ id ∈ ids, Plain id)
    (told : ∀ made ∈ past, PlainAnswer made) : PlainStore (store.after call) := by
  have sameNamespaces : (store.after call).namespaces = store.namespaces := by
    cases call with
    | createNamespace ns => exact asks.elim
    | _ => rfl
  refine ⟨?_, ?_, ?_⟩
  · intro ns owned found
    rw [MemoryMetadataStore.getNamespace, sameNamespaces] at found
    exact plain.owners ns owned found
  · intro ns listed
    rw [MemoryMetadataStore.listNamespaces, sameNamespaces] at listed
    exact plain.namespaces ns listed
  · intro ns blobId manifest found
    rcases MemoryMetadataStore.getManifest_after found with before | ⟨rfl, -, rfl⟩
    · exact plain.blobs ns blobId manifest before
    · have known : Known ids past manifest.blobId.value := asks
      exact ⟨known.plain given told, known.plain given told⟩

theorem PlainStore.reply (plain : PlainStore state.store)
    (drawn : ∀ tick, Plain (env.freshId tick "blob")) (call : PortCall) :
    PlainAnswer ⟨call, state.reply env anchors call⟩ := by
  cases call with
  | newId kind =>
      rintro rfl
      exact drawn state.tick
  | getNamespace ns =>
      intro owned told
      exact plain.owners ns owned (Except.ok.inj told)
  | listNamespaces =>
      intro namespaces told ns listed
      rw [← Except.ok.inj told] at listed
      exact plain.namespaces ns ((env.namespaceOrder_perm _ _).mem_iff.mp listed)
  | listBlobs ns =>
      intro blobs told blobId listed
      rw [← Except.ok.inj told] at listed
      have inStore := (env.blobOrder_perm _ _).mem_iff.mp listed
      rcases Option.isSome_iff_exists.mp (MemoryMetadataStore.mem_listBlobs.mp inStore) with
        ⟨manifest, stored⟩
      exact (plain.blobs ns blobId manifest stored).1
  | getManifest ns blobId =>
      intro manifest told
      exact (plain.blobs ns blobId manifest (Except.ok.inj told)).2
  | _ => exact trivial

/-- The store holds plain ids only, and only such have been told. -/
structure Plainly (state : World A) (trace : Trace) : Prop where
  store : PlainStore state.store
  told : ∀ event ∈ trace, PlainAnswer event.2

theorem Plainly.told_pastOf (plainly : Plainly state trace) (index : ℕ) :
    ∀ made ∈ pastOf index trace, PlainAnswer made :=
  fun _ present => plainly.told _ (mem_pastOf.mp present)

theorem Plainly.step (plainly : Plainly state trace)
    (drawn : ∀ tick, Plain (env.freshId tick "blob")) (given : ∀ id ∈ ids, Plain id)
    (asks : AsksKnown ids (pastOf index trace) call) :
    Plainly ((limitedWorld remote env anchors).answer state call).2
      (trace ++ [(index, ⟨call, ((limitedWorld remote env anchors).answer state call).1⟩)]) := by
  have stepped : Plainly (state.after anchors call)
      (trace ++ [(index, ⟨call, state.reply env anchors call⟩)]) := by
    refine ⟨plainly.store.after asks given (plainly.told_pastOf index), ?_⟩
    intro event present
    rcases List.mem_append.mp present with before | here
    · exact plainly.told event before
    · rw [List.mem_singleton.mp here]
      exact plainly.store.reply drawn call
  cases call with
  | putManifest manifest =>
      rw [limitedWorld_putManifest]
      split
      · refine ⟨plainly.store, ?_⟩
        intro event present
        rcases List.mem_append.mp present with before | here
        · exact plainly.told event before
        · rw [List.mem_singleton.mp here]
          exact trivial
      · exact stepped
  | _ => exact stepped

end Plainly

/-! ## Runs -/

/-- Whatever tasks run on the node and in whatever order their calls come, a node which has its
metadata at the coordinator goes through the same states, gets the same answers and comes to
the same results as one with a store of its own. -/
theorem remote_node_is_local {A : Type} {server : Coordinator} (admitted : server.blocked = false)
    (matching : Matching) {env : Environment} (drawn : ∀ tick, Plain (env.freshId tick "blob"))
    (anchors : AnchorModel A) (node : Node) {first : World A} (plain : PlainStore first.store)
    {tasks : List NodeTask} (given : ∀ task ∈ tasks, ∀ id ∈ task.ids, Plain id)
    (schedule : List ℕ) :
    System.exec (remoteWorld ⟨server.storing, matching⟩ env anchors)
        (System.start first (tasks.map (NodeTask.program node))) schedule =
      System.exec (limitedWorld ⟨server.storing, matching⟩ env anchors)
        (System.start first (tasks.map (NodeTask.program node))) schedule := by
  let rule : ℕ → List PortExchange → PortCall → Prop := fun index past call =>
    ∃ task, tasks[index]? = some task ∧ AsksKnown task.ids past call
  let related : World A → World A → Trace → Prop := fun state mirror trace =>
    state = mirror ∧ Plainly state trace
  have obedient : System.Obedient rule (System.start first
      (tasks.map (NodeTask.program node)) : System ports Failure (World A)) := by
    apply System.obedient_start
    intro index program found
    rw [List.getElem?_map] at found
    rcases Option.map_eq_some_iff.mp found with ⟨task, listed, rfl⟩
    exact (task.program_known node).weaken fun _ _ asks => ⟨task, listed, asks⟩
  have matched : System.Matches (remoteWorld ⟨server.storing, matching⟩ env anchors)
      (limitedWorld ⟨server.storing, matching⟩ env anchors) rule related := by
    rintro state _ trace index call - ⟨rfl, plainly⟩ ⟨task, listed, asks⟩
    have givenHere := given task (List.mem_of_getElem? listed)
    have same : (remoteWorld ⟨server.storing, matching⟩ env anchors).answer state call =
        (limitedWorld ⟨server.storing, matching⟩ env anchors).answer state call :=
      remoteWorld_answer admitted (asks.plain givenHere (plainly.told_pastOf index))
    rw [same]
    exact ⟨rfl, rfl, plainly.step drawn givenHere asks⟩
  have lockstep := (System.lockstep_start (tasks.map (NodeTask.program node))
    (⟨rfl, plain, by simp⟩ : related first first [])).exec obedient matched schedule
  exact lockstep.eq lockstep.states.1

theorem plain_sampleId (tick : ℕ) : Plain (sampleEnvironment.freshId tick "blob") := by
  have hyphen : '-' ∈ (sampleEnvironment.freshId tick "blob").toList := by
    simp [Environment.freshId, String.toList_append]
  refine plain_of_unreserved ?_ (List.ne_nil_of_mem hyphen) ⟨?_, ?_⟩
  · have word : "blob".toList.all isUnreserved = true ∧
        "-".toList.all isUnreserved = true := by
      decide
    simp only [Environment.freshId, String.toList_append, List.all_append, word, Bool.true_and]
    exact List.all_eq_true.mpr fun letter present =>
      isUnreserved_of_isDigit (isDigit_of_mem_sampleUuid present)
  · intro dot
    rw [dot] at hyphen
    exact absurd hyphen (by decide)
  · intro dots
    rw [dots] at hyphen
    exact absurd hyphen (by decide)

def remoteTasks : List NodeTask :=
  [.put ⟨false, [], ⟨none, false⟩⟩ ⟨"ns-1"⟩ (sampleToken .put) (oneByte 7), .sweep true]

def remoteFirst : World ShardMap where
  store := sampleStore ⟨10, 10⟩ ⟨1, 0⟩
  anchor _ := none
  signed := []
  tick := 0

def remoteRun : System ports Failure (World ShardMap) :=
  System.exec (remoteWorld ⟨openCoordinator.storing, MetadataCall.nonEmptySegments⟩
      sampleEnvironment shardMap)
    (System.start remoteFirst (remoteTasks.map (NodeTask.program replicatingNode)))
    [0, 0, 0, 0, 0, 0, 0, 1, 0, 0, 0, 1]

theorem remote_node_is_local_stored :
    remoteRun.state.store.getManifest ⟨"ns-1"⟩ ⟨"blob-5"⟩ = some (sampleManifest [.anchor]) := by
  have plainNs : Plain "ns-1" := plain_of_unreserved (by decide) (by decide) (by decide)
  have plain : PlainStore remoteFirst.store := by
    refine ⟨?_, ?_, by rintro _ _ _ ⟨⟩⟩
    · intro ns owned known
      rcases getNamespace_sampleStore known with rfl
      rcases Option.some.inj known with rfl
      exact plain_of_unreserved (by decide) (by decide) (by decide)
    · intro ns listed
      rcases List.mem_singleton.mp listed with rfl
      exact plainNs
  have given : ∀ task ∈ remoteTasks, ∀ id ∈ task.ids, Plain id := by
    intro task listed id carried
    rcases List.mem_pair.mp listed with rfl | rfl
    · rw [List.mem_singleton.mp carried]
      exact plainNs
    · cases carried
  have same := remote_node_is_local (rfl : openCoordinator.blocked = false)
    MetadataCall.nonEmptySegments plain_sampleId shardMap replicatingNode plain given
    [0, 0, 0, 0, 0, 0, 0, 1, 0, 0, 0, 1]
  rw [remoteRun, same]
  decide +kernel

end VaultMesh
