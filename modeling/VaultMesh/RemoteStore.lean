import VaultMesh.Router

/-!
# The remote metadata store

A node-agent's metadata store is an adapter which asks the coordinator over HTTP.
Ids are spliced into the path of a URL as they are; the coordinator's router reads
them back out of the path. A request is sent to an origin, so the path of its URL
is the text which the adapter appends, and a request which is sent is answered.
-/

namespace VaultMesh

open Interaction Coding Coding.Serde Coding.Urls

/-- The adapter, with the coordinator which it is pointed at. -/
structure RemoteMetadataStore where
  coordinator : Coordinator
  matching : Matching

namespace RemoteMetadataStore

variable (remote : RemoteMetadataStore)

def statusError (status : ℕ) : PortError :=
  if status = 404 then
    .notFound
  else
    .backend ("coordinator returned " ++ remote.coordinator.words.status status)

/-- `resp.json()`, with the body and what it is read as. -/
def taken {α : Type} (body : String) : Option α → PortResult α
  | some value => .ok value
  | none => .error (.serialization (remote.coordinator.words.json body))

def parse {α : Type} [Serde α] (response : Response) : PortResult α :=
  if response.isSuccess then
    remote.taken response.body ((remote.coordinator.words.parse response.body).bind fromJson)
  else
    .error (remote.statusError response.status)

def get {α : Type} [Serde α] (path : String) : UseCase (PortResult α) := do
  match ← (remote.coordinator.respond remote.matching .get path "").attempt with
  | .error _ =>
      pure (.error (.unavailable ("coordinator: " ++ remote.coordinator.words.transport)))
  | .ok response => pure (remote.parse response)

def post (path : String) (body : Json) : UseCase (PortResult Unit) := do
  match ← (remote.coordinator.respond remote.matching .post path
      (remote.coordinator.words.toText body)).attempt with
  | .error _ =>
      pure (.error (.unavailable ("coordinator: " ++ remote.coordinator.words.transport)))
  | .ok response =>
      if response.isSuccess then
        pure (.ok ())
      else
        pure (.error (remote.statusError response.status))

def getContract (app : AppId) : UseCase (PortResult (Option AppContract)) :=
  remote.get ("/v1/meta/contracts/" ++ app.value)

def getNamespace (id : NamespaceId) : UseCase (PortResult (Option Namespace)) :=
  remote.get ("/v1/meta/namespaces/" ++ id.value)

def namespaceUsage (id : NamespaceId) : UseCase (PortResult NamespaceUsage) :=
  remote.get ("/v1/meta/namespaces/" ++ id.value ++ "/usage")

def getManifest (ns : NamespaceId) (blobId : BlobId) : UseCase (PortResult (Option Manifest)) :=
  remote.get ("/v1/meta/namespaces/" ++ ns.value ++ "/manifests/" ++ blobId.value)

def listBlobs (ns : NamespaceId) : UseCase (PortResult (List BlobId)) :=
  remote.get ("/v1/meta/namespaces/" ++ ns.value ++ "/blobs")

/-- The body is the unit value. -/
def deleteManifest (ns : NamespaceId) (blobId : BlobId) : UseCase (PortResult Unit) :=
  remote.post ("/v1/meta/namespaces/" ++ ns.value ++ "/manifests/" ++ blobId.value ++ "/delete")
    .null

end RemoteMetadataStore

/-! ## Operations -/

/-- Endpoints which answer one entry or `null`. -/
def Endpoint.isOptional : Endpoint → Bool
  | .metaGetContract _ | .metaGetNamespace _ | .metaGetManifest _ _ => true
  | _ => false

/-- Endpoints which answer a list of ids. -/
def Endpoint.isListing : Endpoint → Bool
  | .metaListNamespaces | .metaListBlobs _ => true
  | _ => false

def Endpoint.isUsage : Endpoint → Bool
  | .metaNamespaceUsage _ => true
  | _ => false

/-- Endpoints which need no body to change something. -/
def Endpoint.isDeletion : Endpoint → Bool
  | .metaDeleteManifest _ _ => true
  | _ => false

/-- The operations of the store which carry ids in their path. -/
inductive MetadataCall where
  | getContract (app : AppId)
  | getNamespace (id : NamespaceId)
  | namespaceUsage (id : NamespaceId)
  | getManifest (ns : NamespaceId) (blobId : BlobId)
  | listBlobs (ns : NamespaceId)
  | deleteManifest (ns : NamespaceId) (blobId : BlobId)
  deriving DecidableEq

namespace MetadataCall

abbrev Value : MetadataCall → Type
  | .getContract _ => Option AppContract
  | .getNamespace _ => Option Namespace
  | .namespaceUsage _ => NamespaceUsage
  | .getManifest _ _ => Option Manifest
  | .listBlobs _ => List BlobId
  | .deleteManifest _ _ => Unit

/-- The operation through the adapter. -/
def remotely (remote : RemoteMetadataStore) :
    (call : MetadataCall) → UseCase (PortResult call.Value)
  | .getContract app => remote.getContract app
  | .getNamespace id => remote.getNamespace id
  | .namespaceUsage id => remote.namespaceUsage id
  | .getManifest ns blobId => remote.getManifest ns blobId
  | .listBlobs ns => remote.listBlobs ns
  | .deleteManifest ns blobId => remote.deleteManifest ns blobId

/-- The same operation on the coordinator's store. -/
def locally : (call : MetadataCall) → UseCase call.Value
  | .getContract app => VaultMesh.getContract app
  | .getNamespace id => VaultMesh.getNamespace id
  | .namespaceUsage id => VaultMesh.namespaceUsage id
  | .getManifest ns blobId => VaultMesh.getManifest ns blobId
  | .listBlobs ns => VaultMesh.listBlobs ns
  | .deleteManifest ns blobId => VaultMesh.deleteManifest ns blobId

/-- The adapter fails without effect, or does what the store does. -/
def Refines (remote : RemoteMetadataStore) (env : Environment) (state : World Unit)
    (call : MetadataCall) : Prop :=
  (∃ error, ((call.remotely remote).run (world env noAnchor) state).1 = .ok (.error error) ∧
      ((call.remotely remote).run (world env noAnchor) state).2.store = state.store) ∨
    ∃ value, (call.remotely remote).run (world env noAnchor) state =
        (.ok (.ok value), (call.locally.run (world env noAnchor) state).2) ∧
      (call.locally.run (world env noAnchor) state).1 = .ok value

def method : MetadataCall → Method
  | .deleteManifest _ _ => .post
  | _ => .get

/-- The path which the adapter appends to its base. -/
def path : MetadataCall → String
  | .getContract app => "/v1/meta/contracts/" ++ app.value
  | .getNamespace id => "/v1/meta/namespaces/" ++ id.value
  | .namespaceUsage id => "/v1/meta/namespaces/" ++ id.value ++ "/usage"
  | .getManifest ns blobId =>
      "/v1/meta/namespaces/" ++ ns.value ++ "/manifests/" ++ blobId.value
  | .listBlobs ns => "/v1/meta/namespaces/" ++ ns.value ++ "/blobs"
  | .deleteManifest ns blobId =>
      "/v1/meta/namespaces/" ++ ns.value ++ "/manifests/" ++ blobId.value ++ "/delete"

/-- The endpoint which the operation is meant for, with its ids. -/
def home : MetadataCall → Endpoint
  | .getContract app => .metaGetContract app.value
  | .getNamespace id => .metaGetNamespace id.value
  | .namespaceUsage id => .metaNamespaceUsage id.value
  | .getManifest ns blobId => .metaGetManifest ns.value blobId.value
  | .listBlobs ns => .metaListBlobs ns.value
  | .deleteManifest ns blobId => .metaDeleteManifest ns.value blobId.value

/--
The endpoints whose answers the operation accepts: `null` is read by every operation with an
optional result, two strings are read as a namespace, and a list of ids as any other.
-/
def reads : MetadataCall → Endpoint → Bool
  | .getContract _, endpoint => endpoint.isOptional
  | .getNamespace _, endpoint => endpoint.isOptional || endpoint.isListing
  | .namespaceUsage _, endpoint => endpoint.isUsage
  | .getManifest _ _, endpoint => endpoint.isOptional
  | .listBlobs _, endpoint => endpoint.isListing
  | .deleteManifest _ _, endpoint => endpoint.isDeletion

/-- The path leads to another endpoint, or to other ids, and the answer is taken for the own one. -/
def Diverted (matching : Matching) (call : MetadataCall) : Prop :=
  ∃ endpoint, dispatch matching routes call.method (matching.parsePath call.path) = .ok endpoint ∧
    endpoint ≠ call.home ∧ call.reads endpoint = true

end MetadataCall

/-! ## Methods -/

def Endpoint.method : Endpoint → Method
  | .console | .security | .health | .protocol | .pubkey => .get
  | .metaGetContract _ | .metaListNamespaces | .metaGetNamespace _ => .get
  | .metaNamespaceUsage _ | .metaListBlobs _ | .metaGetManifest _ _ => .get
  | .status | .intrusions | .usage _ | .caRoot | .namingResolve _ => .get
  | _ => .post

theorem method_of_plainPath {endpoint reached : Endpoint} {texts : List String}
    (built : plainPath endpoint texts = some reached) : reached.method = endpoint.method := by
  cases texts with
  | nil => rw [Option.some.inj built]
  | cons text texts => cases built

theorem method_of_onePath {endpoint : String → Endpoint} {method : Method} {reached : Endpoint}
    {texts : List String} (built : onePath endpoint texts = some reached)
    (all : ∀ first, (endpoint first).method = method) : reached.method = method := by
  match texts with
  | [first] => rw [← Option.some.inj built, all]

theorem method_of_twoPath {endpoint : String → String → Endpoint} {method : Method}
    {reached : Endpoint} {texts : List String} (built : twoPath endpoint texts = some reached)
    (all : ∀ first second, (endpoint first second).method = method) :
    reached.method = method := by
  match texts with
  | [first, second] => rw [← Option.some.inj built, all]

/-- Every handler of the table stands under its own method. -/
theorem routes_by_method : ∀ route ∈ routes, ∀ entry ∈ route.methods, ∀ texts endpoint,
    entry.2 texts = some endpoint → endpoint.method = entry.1 := by
  simp only [routes, List.forall_mem_cons, List.not_mem_nil, false_imp_iff, implies_true, and_true]
  and_intros
  all_goals
    intro texts endpoint built
    first
      | exact method_of_plainPath built
      | exact method_of_onePath built fun _ => rfl
      | exact method_of_twoPath built fun _ _ => rfl

/-- A request reaches only handlers of its method. -/
theorem method_of_dispatch {matching : Matching} {method : Method} {path : List (List UInt8)}
    {endpoint : Endpoint} (found : dispatch matching routes method path = .ok endpoint) :
    endpoint.method = method := by
  rcases exists_route_of_dispatch found with ⟨route, listed, build, texts, handled, built⟩
  exact routes_by_method route listed (method, build) handled texts endpoint built

/-! ## What the adapter makes of an answer -/

namespace RemoteMetadataStore

def heardGet {α : Type} [Serde α] (remote : RemoteMetadataStore) :
    Except Failure Response → PortResult α
  | .error _ => .error (.unavailable ("coordinator: " ++ remote.coordinator.words.transport))
  | .ok response => remote.parse response

def heardPost (remote : RemoteMetadataStore) : Except Failure Response → PortResult Unit
  | .error _ => .error (.unavailable ("coordinator: " ++ remote.coordinator.words.transport))
  | .ok response =>
      if response.isSuccess then .ok () else .error (remote.statusError response.status)

variable {σ : Type} (host : Handler ports σ) (remote : RemoteMetadataStore)

theorem get_run {α : Type} [Serde α] (path : String) (state : σ) :
    (remote.get path : UseCase (PortResult α)).run host state =
      (.ok (remote.heardGet ((remote.coordinator.respond remote.matching .get path "").run
          host state).1),
        ((remote.coordinator.respond remote.matching .get path "").run host state).2) := by
  rw [get, Program.run_bind, Program.run_attempt]
  rcases (remote.coordinator.respond remote.matching .get path "").run host state with
    ⟨answer, last⟩
  cases answer <;> rfl

theorem post_run (path : String) (body : Json) (state : σ) :
    (remote.post path body).run host state =
      (.ok (remote.heardPost ((remote.coordinator.respond remote.matching .post path
          (remote.coordinator.words.toText body)).run host state).1),
        ((remote.coordinator.respond remote.matching .post path
          (remote.coordinator.words.toText body)).run host state).2) := by
  rw [post, Program.run_bind, Program.run_attempt]
  rcases (remote.coordinator.respond remote.matching .post path
    (remote.coordinator.words.toText body)).run host state with ⟨answer, last⟩
  cases answer with
  | error failure => rfl
  | ok response =>
      simp only [heardPost]
      split <;> rfl

theorem heardGet_of_unsuccessful {α : Type} [Serde α] {response : Response}
    (failed : response.isSuccess = false) :
    (remote.heardGet (.ok response) : PortResult α) =
      .error (remote.statusError response.status) := by
  simp [heardGet, parse, failed]

theorem heardGet_of_unparsed {α : Type} [Serde α] {response : Response}
    (unparsed : remote.coordinator.words.parse response.body = none) :
    ∃ error, (remote.heardGet (.ok response) : PortResult α) = .error error := by
  cases success : response.isSuccess with
  | true => exact ⟨_, by simp only [heardGet, parse, success, if_true, unparsed]; rfl⟩
  | false => exact ⟨_, remote.heardGet_of_unsuccessful success⟩

theorem heardGet_shaped {α : Type} [Serde α] (json : Json) :
    (remote.heardGet (.ok (remote.coordinator.shaped json)) : PortResult α) =
      remote.taken (remote.coordinator.words.toText json) (fromJson json) := by
  simp [heardGet, parse, Coordinator.shaped, Response.isSuccess]

end RemoteMetadataStore

namespace MetadataCall

/-- The text of the body. -/
def body (words : Wording) : MetadataCall → String
  | .deleteManifest _ _ => words.toText .null
  | _ => ""

def received (remote : RemoteMetadataStore) :
    (call : MetadataCall) → Except Failure Response → PortResult call.Value
  | .getContract _ => remote.heardGet
  | .getNamespace _ => remote.heardGet
  | .namespaceUsage _ => remote.heardGet
  | .getManifest _ _ => remote.heardGet
  | .listBlobs _ => remote.heardGet
  | .deleteManifest _ _ => remote.heardPost

/-- The answer of the coordinator to a call. -/
def answer (remote : RemoteMetadataStore) (call : MetadataCall) : UseCase Response :=
  remote.coordinator.respond remote.matching call.method call.path
    (call.body remote.coordinator.words)

variable {σ : Type} {host : Handler ports σ} {remote : RemoteMetadataStore}

theorem remotely_run (call : MetadataCall) (state : σ) :
    (call.remotely remote).run host state =
      (.ok (call.received remote ((call.answer remote).run host state).1),
        ((call.answer remote).run host state).2) := by
  cases call with
  | deleteManifest ns blobId => exact remote.post_run host _ _ state
  | _ => exact remote.get_run host _ state

theorem received_of_dropped (call : MetadataCall) (failure : Failure) :
    ∃ error, call.received remote (.error failure) = .error error := by
  cases call <;> exact ⟨_, rfl⟩

theorem received_of_unsuccessful (call : MetadataCall) {response : Response}
    (failed : response.isSuccess = false) :
    ∃ error, call.received remote (.ok response) = .error error := by
  cases call with
  | deleteManifest ns blobId =>
      exact ⟨remote.statusError response.status, by
        simp [received, RemoteMetadataStore.heardPost, failed]⟩
  | _ => exact ⟨_, remote.heardGet_of_unsuccessful failed⟩

theorem refines_of_error {env : Environment} {state : World Unit} {call : MetadataCall}
    (failed : ∃ error, call.received remote
      ((call.answer remote).run (world env noAnchor) state).1 = .error error)
    (unchanged : ((call.answer remote).run (world env noAnchor) state).2.store = state.store) :
    call.Refines remote env state := by
  rcases failed with ⟨error, failed⟩
  refine Or.inl ⟨error, ?_, ?_⟩
  · rw [remotely_run, failed]
  · rw [remotely_run]
    exact unchanged

/-- The request is answered by its endpoint, unless the caller is blocked. -/
theorem answer_of_dispatch {call : MetadataCall} {endpoint : Endpoint}
    (admitted : remote.coordinator.blocked = false)
    (found : dispatch remote.matching routes call.method (remote.matching.parsePath call.path) =
      .ok endpoint) :
    call.answer remote =
      remote.coordinator.serve (call.body remote.coordinator.words) endpoint := by
  simp [answer, Coordinator.respond, admitted, found]

theorem refines_of_blocked {env : Environment} {state : World Unit} {call : MetadataCall}
    (blocked : remote.coordinator.blocked = true) : call.Refines remote env state := by
  have refused : call.answer remote =
      pure (ApiError.response remote.coordinator.words
        ⟨403, "blocked", "fingerprint is blocked"⟩) := by
    simp [answer, Coordinator.respond, blocked]
  apply refines_of_error
  · rw [refused, Program.run_pure]
    exact received_of_unsuccessful call rfl
  · rw [refused, Program.run_pure]

theorem refines_of_unrouted {env : Environment} {state : World Unit} {call : MetadataCall}
    {status : ℕ} (admitted : remote.coordinator.blocked = false)
    (refused : dispatch remote.matching routes call.method (remote.matching.parsePath call.path) =
      .error status) :
    call.Refines remote env state := by
  have range := dispatch_error_range refused
  have responded : call.answer remote = pure ⟨status, ""⟩ := by
    simp [answer, Coordinator.respond, admitted, refused]
  apply refines_of_error
  · rw [responded, Program.run_pure]
    apply received_of_unsuccessful
    have large : ¬status < 300 := by omega
    simp [Response.isSuccess, large]
  · rw [responded, Program.run_pure]

end MetadataCall

/-! ## What the endpoints answer -/

section Answers

variable {env : Environment} {state : World Unit}

/-- The answers of the metadata endpoints which only read. -/
def metaJson (env : Environment) (state : World Unit) : Endpoint → Option Json
  | .metaGetContract app => some (toJson (state.store.getContract ⟨app⟩))
  | .metaListNamespaces =>
      some (toJson (env.namespaceOrder state.tick state.store.listNamespaces))
  | .metaGetNamespace ns => some (toJson (state.store.getNamespace ⟨ns⟩))
  | .metaNamespaceUsage ns => some (toJson (state.store.namespaceUsage ⟨ns⟩))
  | .metaListBlobs ns => some (toJson (env.blobOrder state.tick (state.store.listBlobs ⟨ns⟩)))
  | .metaGetManifest ns blob => some (toJson (state.store.getManifest ⟨ns⟩ ⟨blob⟩))
  | _ => none

theorem serve_metaJson (server : Coordinator) (body : String) {endpoint : Endpoint} {json : Json}
    (answers : metaJson env state endpoint = some json) :
    ((server.serve body endpoint).run (world env noAnchor) state).1 =
        .ok (server.shaped json) ∧
      ((server.serve body endpoint).run (world env noAnchor) state).2.store = state.store := by
  cases endpoint with
  | metaGetContract app =>
      rcases Option.some.inj answers with rfl
      exact ⟨rfl, rfl⟩
  | metaListNamespaces =>
      rcases Option.some.inj answers with rfl
      exact ⟨rfl, rfl⟩
  | metaGetNamespace ns =>
      rcases Option.some.inj answers with rfl
      exact ⟨rfl, rfl⟩
  | metaNamespaceUsage ns =>
      rcases Option.some.inj answers with rfl
      exact ⟨rfl, rfl⟩
  | metaListBlobs ns =>
      rcases Option.some.inj answers with rfl
      exact ⟨rfl, rfl⟩
  | metaGetManifest ns blob =>
      rcases Option.some.inj answers with rfl
      exact ⟨rfl, rfl⟩
  | _ => cases answers

/-- The fields which tell the structures of the store from every other answer. -/
def tellingFields : List String :=
  ["quota", "id", "bytes", "shards"]

/-- An object which is none of the store's structures. -/
def ForeignJson (json : Json) : Prop :=
  ∃ fields, json = .object fields ∧ ∀ name ∈ tellingFields, name ∉ fields.map Prod.fst

theorem foreignJson_record {names : List String} (values : List Json)
    (other : ∀ name ∈ tellingFields, name ∉ names) : ForeignJson (record names values) := by
  refine ⟨names.zip values, rfl, ?_⟩
  intro name telling present
  rcases List.mem_map.mp present with ⟨field, listed, rfl⟩
  exact other field.1 telling (List.of_mem_zip listed).1

/-- An answer which none of the operations reads. -/
def Foreign (server : Coordinator) (answer : Except Failure Response) : Prop :=
  ∀ response, answer = .ok response → response.isSuccess = false ∨
    server.words.parse response.body = none ∨
      ∃ json, response = server.shaped json ∧ ForeignJson json

theorem foreign_of_json (server : Coordinator) {json : Json} (other : ForeignJson json) :
    Foreign server (.ok (server.shaped json)) := by
  rintro _ ⟨⟩
  exact Or.inr (Or.inr ⟨json, rfl, other⟩)

theorem foreign_of_text (server : Coordinator) {response : Response}
    (unread : Json.NotJson response.body.toList) : Foreign server (.ok response) := by
  rintro _ ⟨⟩
  exact Or.inr (Or.inl (server.words.parse_of_notJson _ unread))

/-- A result written with foreign JSON is foreign, however the program ends. -/
theorem foreign_of_returned (server : Coordinator) {α : Type} {json : α → Json}
    (other : ∀ value, ForeignJson (json value)) (result : Except Failure α) :
    Foreign server ((returned result).map (server.shapedResult json)) := by
  cases result with
  | ok value => exact foreign_of_json server (other value)
  | error failure =>
      cases failure with
      | port error =>
          rintro _ ⟨⟩
          exact Or.inl (err_not_success server.words error)
      | panicked message => rintro _ ⟨⟩

theorem collectLines_readOnly (app : AppId) (namespaces : List NamespaceId)
    (totalBytes totalObjects : UInt64) (past : List PortExchange) :
    (UsageReport.collectLines app namespaces totalBytes totalObjects).Obeys (fun _ => ReadOnly) past
      fun _ _ => True := by
  induction namespaces generalizing totalBytes totalObjects past with
  | nil => exact trivial
  | cons ns namespaces ih =>
      refine Program.Obeys.call_bind trivial (fun _ _ _ => trivial) ?_
      intro _ found _
      cases found with
      | none => exact ih totalBytes totalObjects _
      | some owned =>
          simp only
          split
          · refine Program.Obeys.call_bind trivial (fun _ _ _ => trivial) ?_
            intro _ usage _
            exact (ih _ _ _).bind (fun _ _ _ => trivial) fun _ _ _ => trivial
          · exact ih totalBytes totalObjects _

theorem usageReport_readOnly (app : AppId) :
    (UsageReport.execute app).Obeys (fun _ => ReadOnly) [] fun _ _ => True := by
  refine Program.Obeys.call_bind trivial (fun _ _ _ => trivial) ?_
  intro _ found _
  cases found with
  | none => exact trivial
  | some contract =>
      refine Program.Obeys.call_bind trivial (fun _ _ _ => trivial) ?_
      intro _ namespaces _
      exact (collectLines_readOnly app namespaces 0 0 _).bind (fun _ _ _ => trivial)
        fun _ _ _ => trivial

/-- The other endpoints which are asked with `GET` change nothing and answer something foreign. -/
theorem serve_foreign (server : Coordinator) (body : String) {endpoint : Endpoint}
    (asked : endpoint.method = .get) (other : metaJson env state endpoint = none) :
    Foreign server ((server.serve body endpoint).run (world env noAnchor) state).1 ∧
      ((server.serve body endpoint).run (world env noAnchor) state).2.store = state.store := by
  cases endpoint with
  | console =>
      exact ⟨foreign_of_text server (Json.notJson_of_head server.consolePage_html rfl), rfl⟩
  | security =>
      exact ⟨foreign_of_text server (Json.notJson_of_head server.securityPage_html rfl), rfl⟩
  | caRoot =>
      exact ⟨foreign_of_text server (Json.notJson_of_signs server.rootPem_pem), rfl⟩
  | health => exact ⟨foreign_of_text server (by decide), rfl⟩
  | protocol => exact ⟨foreign_of_json server (foreignJson_record _ (by decide)), rfl⟩
  | pubkey => exact ⟨foreign_of_json server (foreignJson_record _ (by decide)), rfl⟩
  | intrusions => exact ⟨foreign_of_json server (foreignJson_record _ (by decide)), rfl⟩
  | status =>
      have other : ∀ ids : List NamespaceId, ForeignJson (server.statusJson ids.length) :=
        fun _ => foreignJson_record _ (by decide)
      simp only [Coordinator.serve]
      rw [Program.run_bind_pure, mapErr_run]
      exact ⟨foreign_of_returned server other
        (Meta.listNamespaces.run (world env noAnchor) state).1, rfl⟩
  | usage app =>
      simp only [Coordinator.serve]
      rw [Program.run_bind_pure, mapErr_run]
      exact ⟨foreign_of_returned server (fun _ => foreignJson_record _ (by decide)) _,
        (readOnly_run (usageReport_readOnly ⟨app⟩) env noAnchor state).1.1⟩
  | namingResolve name =>
      simp only [Coordinator.serve]
      rw [Program.run_bind_pure, mapErr_run]
      exact ⟨foreign_of_returned server (fun _ => foreignJson_record _ (by decide)) _, rfl⟩
  | metaGetContract app => cases other
  | metaListNamespaces => cases other
  | metaGetNamespace ns => cases other
  | metaNamespaceUsage ns => cases other
  | metaListBlobs ns => cases other
  | metaGetManifest ns blob => cases other
  | _ => cases asked

end Answers

/-- The shapes which the answers of the metadata endpoints have. -/
inductive Shaped : Endpoint → Json → Prop where
  | absent {endpoint : Endpoint} (optional : endpoint.isOptional = true) : Shaped endpoint .null
  | found {endpoint : Endpoint} {fields : List (String × Json)}
      (optional : endpoint.isOptional = true) (other : "bytes" ∉ fields.map Prod.fst) :
      Shaped endpoint (.object fields)
  | listing {endpoint : Endpoint} {texts : List String} (listing : endpoint.isListing = true) :
      Shaped endpoint (.array (texts.map .string))
  | usage {ns : String} {fields : List (String × Json)}
      (other : ∀ name ∈ ["quota", "id", "shards"], name ∉ fields.map Prod.fst) :
      Shaped (.metaNamespaceUsage ns) (.object fields)

theorem toJson_namespaceIds (ids : List NamespaceId) :
    toJson ids = .array ((ids.map NamespaceId.value).map .string) := by
  rw [List.map_map]
  rfl

theorem toJson_blobIds (ids : List BlobId) :
    toJson ids = .array ((ids.map BlobId.value).map .string) := by
  rw [List.map_map]
  rfl

theorem shaped_option {α : Type} [Serde α] [Solid α] {endpoint : Endpoint}
    (optional : endpoint.isOptional = true)
    (records : ∀ value : α, ∃ fields, toJson value = .object fields ∧
      "bytes" ∉ fields.map Prod.fst) (value : Option α) : Shaped endpoint (toJson value) := by
  cases value with
  | none => exact .absent optional
  | some value =>
      rcases records value with ⟨fields, same, other⟩
      change Shaped endpoint (toJson value)
      rw [same]
      exact .found optional other

theorem shaped_metaJson {env : Environment} {state : World Unit} {endpoint : Endpoint} {json : Json}
    (answers : metaJson env state endpoint = some json) : Shaped endpoint json := by
  cases endpoint with
  | metaGetContract app =>
      rcases Option.some.inj answers with rfl
      exact shaped_option rfl (fun contract => ⟨_, rfl, by simp⟩) _
  | metaGetNamespace ns =>
      rcases Option.some.inj answers with rfl
      exact shaped_option rfl (fun ns => ⟨_, rfl, by simp⟩) _
  | metaGetManifest ns blob =>
      rcases Option.some.inj answers with rfl
      exact shaped_option rfl (fun manifest => ⟨_, rfl, by simp⟩) _
  | metaListNamespaces =>
      rcases Option.some.inj answers with rfl
      rw [toJson_namespaceIds]
      exact .listing rfl
  | metaListBlobs ns =>
      rcases Option.some.inj answers with rfl
      rw [toJson_blobIds]
      exact .listing rfl
  | metaNamespaceUsage ns =>
      rcases Option.some.inj answers with rfl
      exact .usage (by simp)
  | _ => cases answers

/-! ## What the operations read -/

section Reading

variable {fields : List (String × Json)}

theorem contract_of_lacking (missing : "quota" ∉ fields.map Prod.fst) :
    (fromJson (.object fields) : Option AppContract) = none := by
  refine bind_entries_eq_none 2 (· = none) ?_ fun given found =>
    ⟨none, entries_lacking rfl missing found, rfl⟩
  intro given entry position missing
  split
  · simp only [List.getElem?_cons_succ, List.getElem?_cons_zero, Option.some.injEq] at position
    simp [position, missing, required]
  · rfl

theorem namespace_of_lacking (missing : "id" ∉ fields.map Prod.fst) :
    (fromJson (.object fields) : Option Namespace) = none := by
  refine bind_entries_eq_none 0 (· = none) ?_ fun given found =>
    ⟨none, entries_lacking rfl missing found, rfl⟩
  intro given entry position missing
  split
  · simp only [List.getElem?_cons_zero, Option.some.injEq] at position
    simp [position, missing, required]
  · rfl

theorem usage_of_lacking (missing : "bytes" ∉ fields.map Prod.fst) :
    (fromJson (.object fields) : Option NamespaceUsage) = none := by
  refine bind_entries_eq_none 0 (· = none) ?_ fun given found =>
    ⟨none, entries_lacking rfl missing found, rfl⟩
  intro given entry position missing
  split
  · simp only [List.getElem?_cons_zero, Option.some.injEq] at position
    simp [position, missing, required]
  · rfl

theorem manifest_of_lacking (missing : "shards" ∉ fields.map Prod.fst) :
    (fromJson (.object fields) : Option Manifest) = none := by
  refine bind_entries_eq_none 3 (· = none) ?_ fun given found =>
    ⟨none, entries_lacking rfl missing found, rfl⟩
  intro given entry position missing
  split
  · simp only [List.getElem?_cons_succ, List.getElem?_cons_zero, Option.some.injEq] at position
    simp [position, missing, required]
  · rfl

theorem contract_of_texts (texts : List String) :
    (fromJson (.array (texts.map .string)) : Option AppContract) = none := by
  refine bind_entries_eq_none 1 IsText ?_ fun given found =>
    entries_texts (by decide) found
  intro given entry position isText
  have unread : (required entry : Option ProtocolVersion) = none := by
    rcases isText with rfl | ⟨text, rfl⟩ <;> rfl
  split
  · simp only [List.getElem?_cons_succ, List.getElem?_cons_zero, Option.some.injEq] at position
    simp [position, unread]
  · rfl

theorem usage_of_texts (texts : List String) :
    (fromJson (.array (texts.map .string)) : Option NamespaceUsage) = none := by
  refine bind_entries_eq_none 0 IsText ?_ fun given found =>
    entries_texts (by decide) found
  intro given entry position isText
  have unread : (required entry : Option UInt64) = none := by
    rcases isText with rfl | ⟨text, rfl⟩ <;> rfl
  split
  · simp only [List.getElem?_cons_zero, Option.some.injEq] at position
    simp [position, unread]
  · rfl

theorem manifest_of_texts (texts : List String) :
    (fromJson (.array (texts.map .string)) : Option Manifest) = none := by
  refine bind_entries_eq_none 2 IsText ?_ fun given found =>
    entries_texts (by decide) found
  intro given entry position isText
  have unread : (required entry : Option ErasureParams) = none := by
    rcases isText with rfl | ⟨text, rfl⟩ <;> rfl
  split
  · simp only [List.getElem?_cons_succ, List.getElem?_cons_zero, Option.some.injEq] at position
    simp [position, unread]
  · rfl

/-- Two texts are read as a namespace. -/
theorem namespace_of_two_texts (first second : String) :
    (fromJson (.array [.string first, .string second]) : Option Namespace) =
      some ⟨⟨first⟩, ⟨second⟩⟩ :=
  rfl

end Reading

namespace MetadataCall

variable {remote : RemoteMetadataStore} {env : Environment} {state : World Unit}

/-- The value which an operation reads out of an answer. -/
def readJson : (call : MetadataCall) → Json → Option call.Value
  | .getContract _ => fromJson
  | .getNamespace _ => fromJson
  | .namespaceUsage _ => fromJson
  | .getManifest _ _ => fromJson
  | .listBlobs _ => fromJson
  | .deleteManifest _ _ => fun _ => none

theorem received_shaped {call : MetadataCall} (asked : call.method = .get) (json : Json) :
    call.received remote (.ok (remote.coordinator.shaped json)) =
      remote.taken (remote.coordinator.words.toText json) (call.readJson json) := by
  cases call with
  | deleteManifest ns blobId => cases asked
  | _ => exact remote.heardGet_shaped json

theorem received_unread {call : MetadataCall} (asked : call.method = .get) {json : Json}
    (unread : call.readJson json = none) :
    ∃ error, call.received remote (.ok (remote.coordinator.shaped json)) = .error error := by
  rw [received_shaped asked, unread]
  exact ⟨_, rfl⟩

theorem readJson_of_foreign (call : MetadataCall) {json : Json} (foreign : ForeignJson json) :
    call.readJson json = none := by
  rcases foreign with ⟨fields, rfl, other⟩
  cases call with
  | getContract app =>
      exact congrArg (Option.map some) (contract_of_lacking (other _ (by decide)))
  | getNamespace id =>
      exact congrArg (Option.map some) (namespace_of_lacking (other _ (by decide)))
  | namespaceUsage id => exact usage_of_lacking (other _ (by decide))
  | getManifest ns blobId =>
      exact congrArg (Option.map some) (manifest_of_lacking (other _ (by decide)))
  | listBlobs ns => rfl
  | deleteManifest ns blobId => rfl

theorem received_of_foreign {call : MetadataCall} (asked : call.method = .get)
    {answer : Except Failure Response} (foreign : Foreign remote.coordinator answer) :
    ∃ error, call.received remote answer = .error error := by
  cases answer with
  | error failure => exact received_of_dropped call failure
  | ok response =>
      rcases foreign response rfl with failed | unparsed | ⟨json, rfl, other⟩
      · exact received_of_unsuccessful call failed
      · cases call with
        | deleteManifest ns blobId => cases asked
        | _ => exact remote.heardGet_of_unparsed unparsed
      · exact received_unread asked (call.readJson_of_foreign other)

/-- Answers of the wrong shape are not read. -/
theorem readJson_of_not_reads {call : MetadataCall} {endpoint : Endpoint} {json : Json}
    (apart : call.reads endpoint = false) (shape : Shaped endpoint json) :
    call.readJson json = none := by
  cases call with
  | getContract app =>
      cases shape with
      | absent optional => cases optional.symm.trans apart
      | found optional _ => cases optional.symm.trans apart
      | listing _ => exact congrArg (Option.map some) (contract_of_texts _)
      | usage other => exact congrArg (Option.map some) (contract_of_lacking (other _ (by decide)))
  | getNamespace id =>
      have neither := Bool.or_eq_false_iff.mp apart
      cases shape with
      | absent optional => cases optional.symm.trans neither.1
      | found optional _ => cases optional.symm.trans neither.1
      | listing listing => cases listing.symm.trans neither.2
      | usage other => exact congrArg (Option.map some) (namespace_of_lacking (other _ (by decide)))
  | namespaceUsage id =>
      cases shape with
      | absent _ => rfl
      | found _ other => exact usage_of_lacking other
      | listing _ => exact usage_of_texts _
      | usage _ => cases apart
  | getManifest ns blobId =>
      cases shape with
      | absent optional => cases optional.symm.trans apart
      | found optional _ => cases optional.symm.trans apart
      | listing _ => exact congrArg (Option.map some) (manifest_of_texts _)
      | usage other => exact congrArg (Option.map some) (manifest_of_lacking (other _ (by decide)))
  | listBlobs ns =>
      cases shape with
      | absent _ => rfl
      | found _ _ => rfl
      | listing listing => cases listing.symm.trans apart
      | usage _ => rfl
  | deleteManifest ns blobId => rfl

/-- Only a deletion takes a request without a body. -/
theorem serve_post_null (server : Coordinator) {endpoint : Endpoint}
    (asked : endpoint.method = .post) (other : endpoint.isDeletion = false) :
    server.serve (server.words.toText .null) endpoint =
      pure ⟨422, server.words.rejection (server.words.toText .null)⟩ := by
  have short : ¬bodyLimit < (utf8 (server.words.toText .null)).length := by
    rw [server.words.toText_null]
    decide
  have refused : server.post endpoint (server.words.toText .null) =
      pure ⟨422, server.words.rejection (server.words.toText .null)⟩ := by
    rw [Coordinator.post, if_neg short, server.words.parseFront_toText]
    rfl
  cases endpoint with
  | metaDeleteManifest ns blob => cases other
  | _ => first | exact refused | cases asked

/-- A path which leads elsewhere does no harm if the answer is not read. -/
theorem refines_of_not_reads {call : MetadataCall} {endpoint : Endpoint}
    (admitted : remote.coordinator.blocked = false)
    (found : dispatch remote.matching routes call.method (remote.matching.parsePath call.path) =
      .ok endpoint)
    (apart : call.reads endpoint = false) : call.Refines remote env state := by
  have asked := method_of_dispatch found
  have answered := answer_of_dispatch admitted found
  cases method : call.method with
  | get =>
      rw [method] at asked
      cases answers : metaJson env state endpoint with
      | none =>
          rcases serve_foreign remote.coordinator _ asked answers with ⟨foreign, unchanged⟩
          rw [← answered] at foreign unchanged
          exact refines_of_error (received_of_foreign method foreign) unchanged
      | some json =>
          rcases serve_metaJson remote.coordinator _ answers with ⟨response, unchanged⟩
          rw [← answered] at response unchanged
          apply refines_of_error _ unchanged
          rw [response]
          exact received_unread method (readJson_of_not_reads apart (shaped_metaJson answers))
  | post =>
      rw [method] at asked
      cases call with
      | deleteManifest ns blobId =>
          have refused := serve_post_null remote.coordinator asked apart
          apply refines_of_error
          · rw [answered, body, refused, Program.run_pure]
            exact received_of_unsuccessful _ rfl
          · rw [answered, body, refused, Program.run_pure]
      | _ => cases method

theorem refines_of_answer {call : MetadataCall} (asked : call.method = .get) {value : call.Value}
    {json : Json}
    (answered : (call.answer remote).run (world env noAnchor) state =
      (.ok (remote.coordinator.shaped json), (call.locally.run (world env noAnchor) state).2))
    (read : call.readJson json = some value)
    (same : (call.locally.run (world env noAnchor) state).1 = .ok value) :
    call.Refines remote env state := by
  refine Or.inr ⟨value, ?_, same⟩
  rw [remotely_run, answered, received_shaped asked, read]
  rfl

/-- A path which leads to its own endpoint with its own ids does what the store does. -/
theorem refines_of_home {call : MetadataCall} (admitted : remote.coordinator.blocked = false)
    (found : dispatch remote.matching routes call.method (remote.matching.parsePath call.path) =
      .ok call.home) :
    call.Refines remote env state := by
  have answered := answer_of_dispatch admitted found
  cases call with
  | getContract app =>
      exact refines_of_answer rfl (by rw [answered]; rfl) (fromJson_toJson _) rfl
  | getNamespace id =>
      exact refines_of_answer rfl (by rw [answered]; rfl) (fromJson_toJson _) rfl
  | namespaceUsage id =>
      exact refines_of_answer rfl (by rw [answered]; rfl) (fromJson_toJson _) rfl
  | getManifest ns blobId =>
      exact refines_of_answer rfl (by rw [answered]; rfl) (fromJson_toJson _) rfl
  | listBlobs ns =>
      exact refines_of_answer rfl (by rw [answered]; rfl) (fromJson_toJson _) rfl
  | deleteManifest ns blobId =>
      refine Or.inr ⟨(), ?_, rfl⟩
      rw [remotely_run, answered]
      rfl

end MetadataCall

end VaultMesh
