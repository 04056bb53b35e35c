import VaultMesh.Coding.Urls
import VaultMesh.Coordinator
import VaultMesh.Http

/-!
# The coordinator's router

The routes of the coordinator, the endpoint which a request is taken to, and what
each endpoint answers. The metadata endpoints are the programs of
`VaultMesh.Coordinator`; what the other endpoints read from the certificate
authority, the name registry and the intrusion ledger is a parameter. A handler
which takes a body is entered only with a body that has its fields.
-/

namespace VaultMesh

open Interaction Coding Coding.Serde Coding.Urls

inductive Method where
  | get
  | post
  deriving DecidableEq, Repr

/-- The handlers of the router, with their path parameters. -/
inductive Endpoint where
  | console
  | security
  | enroll
  | health
  | protocol
  | pubkey
  | registerApp
  | createNamespace
  | issueCapability
  | metaGetContract (app : String)
  | metaCreateNamespace
  | metaListNamespaces
  | metaGetNamespace (ns : String)
  | metaNamespaceUsage (ns : String)
  | metaListBlobs (ns : String)
  | metaPutManifest
  | metaGetManifest (ns blob : String)
  | metaSetManifestName (ns blob : String)
  | metaDeleteManifest (ns blob : String)
  | status
  | intrusions
  | perimeterSimulate
  | usage (app : String)
  | presign
  | deleteBlob
  | caRoot
  | caIssue
  | namingPublish
  | namingResolve (name : String)
  deriving DecidableEq, Repr

/-! ## Routes -/

/-- A handler without path parameters. -/
def plainPath (endpoint : Endpoint) : List String → Option Endpoint
  | [] => some endpoint
  | _ => none

/-- A handler with `Path<String>`. -/
def onePath (endpoint : String → Endpoint) : List String → Option Endpoint
  | [first] => some (endpoint first)
  | _ => none

/-- A handler with `Path<(String, String)>`. -/
def twoPath (endpoint : String → String → Endpoint) : List String → Option Endpoint
  | [first, second] => some (endpoint first second)
  | _ => none

def routes : List (Route Method Endpoint) :=
  [⟨[.word ""], [(.get, plainPath .console)]⟩,
    ⟨[.word "security"], [(.get, plainPath .security)]⟩,
    ⟨[.word "v1", .word "admin", .word "enroll"], [(.post, plainPath .enroll)]⟩,
    ⟨[.word "health"], [(.get, plainPath .health)]⟩,
    ⟨[.word "v1", .word "protocol"], [(.get, plainPath .protocol)]⟩,
    ⟨[.word "v1", .word "coordinator", .word "pubkey"], [(.get, plainPath .pubkey)]⟩,
    ⟨[.word "v1", .word "apps"], [(.post, plainPath .registerApp)]⟩,
    ⟨[.word "v1", .word "namespaces"], [(.post, plainPath .createNamespace)]⟩,
    ⟨[.word "v1", .word "capabilities"], [(.post, plainPath .issueCapability)]⟩,
    ⟨[.word "v1", .word "meta", .word "contracts", .param], [(.get, onePath .metaGetContract)]⟩,
    ⟨[.word "v1", .word "meta", .word "namespaces"],
      [(.post, plainPath .metaCreateNamespace), (.get, plainPath .metaListNamespaces)]⟩,
    ⟨[.word "v1", .word "meta", .word "namespaces", .param],
      [(.get, onePath .metaGetNamespace)]⟩,
    ⟨[.word "v1", .word "meta", .word "namespaces", .param, .word "usage"],
      [(.get, onePath .metaNamespaceUsage)]⟩,
    ⟨[.word "v1", .word "meta", .word "namespaces", .param, .word "blobs"],
      [(.get, onePath .metaListBlobs)]⟩,
    ⟨[.word "v1", .word "meta", .word "manifests"], [(.post, plainPath .metaPutManifest)]⟩,
    ⟨[.word "v1", .word "meta", .word "namespaces", .param, .word "manifests", .param],
      [(.get, twoPath .metaGetManifest)]⟩,
    ⟨[.word "v1", .word "meta", .word "namespaces", .param, .word "manifests", .param,
        .word "name"],
      [(.post, twoPath .metaSetManifestName)]⟩,
    ⟨[.word "v1", .word "meta", .word "namespaces", .param, .word "manifests", .param,
        .word "delete"],
      [(.post, twoPath .metaDeleteManifest)]⟩,
    ⟨[.word "v1", .word "admin", .word "status"], [(.get, plainPath .status)]⟩,
    ⟨[.word "v1", .word "admin", .word "intrusions"], [(.get, plainPath .intrusions)]⟩,
    ⟨[.word "v1", .word "admin", .word "perimeter", .word "simulate"],
      [(.post, plainPath .perimeterSimulate)]⟩,
    ⟨[.word "v1", .word "usage", .param], [(.get, onePath .usage)]⟩,
    ⟨[.word "v1", .word "anchor", .word "presign"], [(.post, plainPath .presign)]⟩,
    ⟨[.word "v1", .word "anchor", .word "delete-blob"], [(.post, plainPath .deleteBlob)]⟩,
    ⟨[.word "v1", .word "ca", .word "root"], [(.get, plainPath .caRoot)]⟩,
    ⟨[.word "v1", .word "admin", .word "ca", .word "leaf"], [(.post, plainPath .caIssue)]⟩,
    ⟨[.word "v1", .word "naming"], [(.post, plainPath .namingPublish)]⟩,
    ⟨[.word "v1", .word "naming", .param], [(.get, onePath .namingResolve)]⟩]

/-- The fields of the body which a handler takes. -/
def Endpoint.bodyFields : Endpoint → List String
  | .enroll => ["label", "quota_bytes", "max_objects", "keep_versions", "min_days", "erasure_k",
      "erasure_n"]
  | .registerApp => ["label", "quota", "retention", "erasure"]
  | .createNamespace => ["app_id"]
  | .issueCapability => ["app_id", "namespace", "operation", "ttl_secs"]
  | .metaCreateNamespace => ["id", "app_id"]
  | .metaPutManifest => ["blob_id", "namespace", "erasure", "shards", "ciphertext_len",
      "created_at", "name_enc", "object_id"]
  | .metaSetManifestName _ _ => ["name_enc", "object_id"]
  | .perimeterSimulate => ["fingerprint", "strikes"]
  | .presign => ["namespace", "blob_id", "index", "op"]
  | .deleteBlob => ["namespace", "blob_id"]
  | .caIssue => ["subject"]
  | .namingPublish => ["name", "current_ip"]
  | _ => []

/-! ## Answers -/

/-- The coordinator as its callers see it, apart from the metadata store. -/
structure Coordinator where
  words : Wording
  blocked : Bool
  consolePage : String
  consolePage_html : consolePage.toList.head? = some '<'
  securityPage : String
  securityPage_html : securityPage.toList.head? = some '<'
  publicKeyB64 : String
  rootPem : String
  rootPem_pem : "--".toList <+: rootPem.toList
  ledgerEntries : List Json
  chainValid : Bool
  blocklist : List String
  resolve : String → PortResult String
  accepted : Endpoint → Json → UseCase Response

def NamespaceLine.json (line : NamespaceLine) : Json :=
  record ["namespace", "bytes", "objects"]
    [toJson line.ns, toJson line.bytes, toJson line.objects]

def UsageStatement.json (statement : UsageStatement) : Json :=
  record ["app_id", "lines", "total_bytes", "total_objects", "quota_max_bytes",
      "estimated_cost_micros"]
    [toJson statement.appId, .array (statement.lines.map NamespaceLine.json),
      toJson statement.totalBytes, toJson statement.totalObjects, toJson statement.quotaMaxBytes,
      toJson statement.estimatedCostMicros]

namespace Coordinator

variable (server : Coordinator)

/-- `Json` of a value whose shape is written out. -/
def shaped (json : Json) : Response :=
  ⟨200, server.words.toText json⟩

def protocolJson : Json :=
  record ["version"] [toJson ProtocolVersion.current]

def pubkeyJson : Json :=
  record ["public_key_b64"] [toJson server.publicKeyB64]

def intrusionsJson : Json :=
  record ["entries", "chain_valid", "blocked"]
    [.array server.ledgerEntries, .bool server.chainValid, toJson server.blocklist]

def statusJson (namespaces : ℕ) : Json :=
  record ["protocol_version", "namespaces", "intrusion_count", "intrusion_chain_valid",
      "blocked_fingerprints"]
    [.string s!"{ProtocolVersion.current.major.toNat}.{ProtocolVersion.current.minor.toNat}",
      .number namespaces, .number server.ledgerEntries.length, .bool server.chainValid,
      .number server.blocklist.length]

def resolveJson (currentIp : String) : Json :=
  record ["current_ip"] [toJson currentIp]

/-- A result whose value is written with `json`. -/
def shapedResult {α : Type} (json : α → Json) : Except ApiError α → Response
  | .ok value => server.shaped (json value)
  | .error error => error.response server.words

/-- Enter a handler with the body, if the body has the handler's fields. -/
def post (endpoint : Endpoint) (body : String) : UseCase Response :=
  if bodyLimit < (utf8 body).length then
    pure ⟨413, server.words.rejection body⟩
  else
    match server.words.parseFront body with
    | none => pure ⟨400, server.words.rejection body⟩
    | some json =>
        match entries endpoint.bodyFields json with
        | none => pure ⟨422, server.words.rejection body⟩
        | some _ => server.accepted endpoint json

def serve (body : String) : Endpoint → UseCase Response
  | .console => pure ⟨200, server.consolePage⟩
  | .security => pure ⟨200, server.securityPage⟩
  | .health => pure ⟨200, "ok"⟩
  | .protocol => pure (server.shaped protocolJson)
  | .pubkey => pure (server.shaped server.pubkeyJson)
  | .metaGetContract app => do return jsonResponse server.words (← mapErr (Meta.getContract app))
  | .metaListNamespaces => do return jsonResponse server.words (← mapErr Meta.listNamespaces)
  | .metaGetNamespace ns => do return jsonResponse server.words (← mapErr (Meta.getNamespace ns))
  | .metaNamespaceUsage ns => do
      return jsonResponse server.words (← mapErr (Meta.namespaceUsage ns))
  | .metaListBlobs ns => do return jsonResponse server.words (← mapErr (Meta.listBlobs ns))
  | .metaGetManifest ns blob => do
      return jsonResponse server.words (← mapErr (Meta.getManifest ns blob))
  | .metaDeleteManifest ns blob => do
      return emptyResponse server.words (← mapErr (Meta.deleteManifest ns blob))
  | .status => do
      let namespaces ← mapErr Meta.listNamespaces
      return server.shapedResult (fun ids => server.statusJson ids.length) namespaces
  | .intrusions => pure (server.shaped server.intrusionsJson)
  | .usage app => do
      return server.shapedResult UsageStatement.json (← mapErr (UsageReport.execute ⟨app⟩))
  | .caRoot => pure ⟨200, server.rootPem⟩
  | .namingResolve name => do
      let currentIp ← mapErr (Program.done (question (server.resolve name)))
      return server.shapedResult resolveJson currentIp
  | endpoint => server.post endpoint body

/-- Blocked callers never reach a handler. -/
def respond (matching : Matching) (method : Method) (path body : String) : UseCase Response :=
  if server.blocked then
    pure (ApiError.response server.words ⟨403, "blocked", "fingerprint is blocked"⟩)
  else
    match dispatch matching routes method (matching.parsePath path) with
    | .error status => pure ⟨status, ""⟩
    | .ok endpoint => server.serve body endpoint

end Coordinator

end VaultMesh
