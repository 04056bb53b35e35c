import VaultMesh.Interaction.Interleaving
import VaultMesh.World

/-!
# The coordinator

The handlers of the coordinator's router which read or write the metadata
store: the control plane, the operator console and the metadata endpoints.
Request bodies are what derived deserialization accepts, so a body's fields are
arbitrary values of their types. `CoordinatorRequest.rule` says what a request
may ask of the store, given what it has been answered.
-/

namespace VaultMesh

open Interaction

/-! ## Control plane -/

structure RegisterAppRequest where
  label : String
  quota : Quota
  retention : RetentionPolicy
  erasure : ErasureParams
  deriving DecidableEq, Repr

structure CreateNamespaceRequest where
  appId : AppId
  deriving DecidableEq, Repr

structure IssueCapabilityRequest where
  appId : AppId
  ns : NamespaceId
  operation : Operation
  ttlSecs : UInt64
  deriving DecidableEq, Repr

namespace Control

/-- The contract registered; the key minted for the response has no effect on the store. -/
def registerApp (body : RegisterAppRequest) : UseCase AppContract :=
  RegisterApp.execute body.quota body.retention body.erasure

def createNamespace (body : CreateNamespaceRequest) : UseCase NamespaceId := do
  let ns ← CreateNamespace.execute body.appId
  pure ns.id

def issueCapability (body : IssueCapabilityRequest) : UseCase CapabilityToken :=
  IssueCapability.execute body.appId body.ns body.operation body.ttlSecs

end Control

/-! ## Operator console -/

/-- All terms are optional. -/
structure EnrollRequest where
  label : String
  quotaBytes : Option UInt64
  maxObjects : Option UInt64
  keepVersions : Option UInt32
  minDays : Option UInt32
  erasureK : Option UInt8
  erasureN : Option UInt8
  deriving DecidableEq, Repr

/-- A client certificate and its key, as the certificate authority issues them. -/
structure ClientIdentity where
  certPem : String
  keyPem : String
  deriving DecidableEq, Repr

structure CertAuthority where
  issueClient : String → PortResult ClientIdentity
  rootPem : String

structure EnrollResponse where
  label : String
  appId : String
  ns : String
  clientCertPem : String
  clientKeyPem : String
  caRootPem : String
  quotaBytes : UInt64
  maxObjects : UInt64
  keepVersions : UInt32
  minDays : UInt32
  erasureK : UInt8
  erasureN : UInt8
  deriving DecidableEq, Repr

/-- The characters which `str::trim` removes. -/
def isWhiteSpace (letter : Char) : Bool :=
  let code := letter.toNat
  (0x9 ≤ code && code ≤ 0xD) || code = 0x20 || code = 0x85 || code = 0xA0 || code = 0x1680 ||
    (0x2000 ≤ code && code ≤ 0x200A) || code = 0x2028 || code = 0x2029 || code = 0x202F ||
    code = 0x205F || code = 0x3000

/-- `str::trim`. -/
def trim (text : String) : String :=
  String.ofList ((text.toList.dropWhile isWhiteSpace).reverse.dropWhile isWhiteSpace).reverse

namespace Console

def effectiveLabel (label : String) : String :=
  if trim label = "" then "node" else trim label

/-- Register an application and a namespace, and mint an identity for a new node. -/
def enroll (ca : CertAuthority) (body : EnrollRequest) : UseCase EnrollResponse := do
  let label := effectiveLabel body.label
  let quota : Quota := ⟨body.quotaBytes.getD ((1 : UInt64) <<< 30), body.maxObjects.getD 10000⟩
  let retention : RetentionPolicy := ⟨body.keepVersions.getD 3, body.minDays.getD 30⟩
  let erasure ← Program.done
    (fromDomain (ErasureParams.new (body.erasureK.getD 4) (body.erasureN.getD 6)))
  let contract ← RegisterApp.execute quota retention erasure
  let ns ← CreateNamespace.execute contract.appId
  let identity ← Program.done (question (ca.issueClient label))
  pure ⟨label, contract.appId.value, ns.id.value, identity.certPem, identity.keyPem, ca.rootPem,
    contract.quota.maxBytes, contract.quota.maxObjects, contract.retention.keepVersions,
    contract.retention.minDays, contract.erasure.k, contract.erasure.n⟩

end Console

/-! ## Metadata endpoints -/

namespace Meta

def listNamespaces : UseCase (List NamespaceId) :=
  .call .listNamespaces fun answer => .done (question answer)

def getContract (app : String) : UseCase (Option AppContract) :=
  VaultMesh.getContract ⟨app⟩

/-- The body is stored as it is. -/
def createNamespace (ns : Namespace) : UseCase Unit :=
  storeNamespace ns

def getNamespace (ns : String) : UseCase (Option Namespace) :=
  VaultMesh.getNamespace ⟨ns⟩

def namespaceUsage (ns : String) : UseCase NamespaceUsage :=
  VaultMesh.namespaceUsage ⟨ns⟩

def putManifest (manifest : Manifest) : UseCase Unit :=
  VaultMesh.putManifest manifest

def getManifest (ns blob : String) : UseCase (Option Manifest) :=
  VaultMesh.getManifest ⟨ns⟩ ⟨blob⟩

def listBlobs (ns : String) : UseCase (List BlobId) :=
  VaultMesh.listBlobs ⟨ns⟩

def setManifestName (ns blob : String) (body : SetNameRequest) : UseCase Unit :=
  VaultMesh.setManifestName ⟨ns⟩ ⟨blob⟩ body

def deleteManifest (ns blob : String) : UseCase Unit :=
  VaultMesh.deleteManifest ⟨ns⟩ ⟨blob⟩

end Meta

/-! ## Requests -/

/-- A request to the router, with its body and its path parameters. -/
inductive CoordinatorRequest where
  | registerApp (body : RegisterAppRequest)
  | enroll (ca : CertAuthority) (body : EnrollRequest)
  | createNamespace (body : CreateNamespaceRequest)
  | issueCapability (body : IssueCapabilityRequest)
  | metaCreateNamespace (body : Namespace)
  | metaListNamespaces
  | metaGetContract (app : String)
  | metaGetNamespace (ns : String)
  | metaNamespaceUsage (ns : String)
  | metaPutManifest (body : Manifest)
  | metaGetManifest (ns blob : String)
  | metaListBlobs (ns : String)
  | metaSetManifestName (ns blob : String) (body : SetNameRequest)
  | metaDeleteManifest (ns blob : String)

namespace CoordinatorRequest

/-- Serve a request; what it answers does not matter for the other requests. -/
def program : CoordinatorRequest → UseCase Unit
  | .registerApp body => (Control.registerApp body).void
  | .enroll ca body => (Console.enroll ca body).void
  | .createNamespace body => (Control.createNamespace body).void
  | .issueCapability body => (Control.issueCapability body).void
  | .metaCreateNamespace body => Meta.createNamespace body
  | .metaListNamespaces => Meta.listNamespaces.void
  | .metaGetContract app => (Meta.getContract app).void
  | .metaGetNamespace ns => (Meta.getNamespace ns).void
  | .metaNamespaceUsage ns => (Meta.namespaceUsage ns).void
  | .metaPutManifest body => Meta.putManifest body
  | .metaGetManifest ns blob => (Meta.getManifest ns blob).void
  | .metaListBlobs ns => (Meta.listBlobs ns).void
  | .metaSetManifestName ns blob body => Meta.setManifestName ns blob body
  | .metaDeleteManifest ns blob => Meta.deleteManifest ns blob

/--
What a request may ask: a contract is registered with the body's terms or with checked ones, a
namespace is created as the body says or for an application found, and claims are signed for the
owner found.
-/
def rule (request : CoordinatorRequest) (past : List PortExchange) : PortCall → Prop
  | .registerApp contract =>
      (∃ body, request = .registerApp body ∧ contract.erasure = body.erasure) ∨
        contract.erasure.Valid
  | .createNamespace ns =>
      request = .metaCreateNamespace ns ∨
        ∃ contract, (⟨.getContract ns.appId, .ok (some contract)⟩ : PortExchange) ∈ past
  | .sign claims =>
      ∃ owned, (⟨.getNamespace claims.ns, .ok (some owned)⟩ : PortExchange) ∈ past ∧
        owned.appId = claims.appId
  | _ => True

end CoordinatorRequest

theorem ErasureParams.valid_of_new {k n : UInt8} {params : ErasureParams}
    (checked : ErasureParams.new k n = .ok params) : params.Valid := by
  unfold ErasureParams.new at checked
  split at checked
  · cases checked
  · next accepted =>
      rcases Except.ok.inj checked with rfl
      simp only [not_or, UInt8.not_lt, UInt8.le_iff_toNat_le] at accepted
      refine ⟨?_, accepted.2⟩
      have notZero : k.toNat ≠ 0 := fun zero => accepted.1 (UInt8.toNat_inj.mp zero)
      simp only
      omega

/-! ## What the handlers ask -/

namespace CoordinatorRequest

variable {request : CoordinatorRequest}

theorem registerApp_obeys {quota : Quota} {retention : RetentionPolicy} {erasure : ErasureParams}
    (permitted : (∃ body, request = .registerApp body ∧ erasure = body.erasure) ∨ erasure.Valid)
    (past : List PortExchange) :
    (RegisterApp.execute quota retention erasure).Obeys request.rule past fun _ _ => True := by
  refine Program.Obeys.call_bind trivial (fun _ _ _ => trivial) ?_
  intro _ _ _
  exact Program.Obeys.call_bind permitted (fun _ _ _ => trivial) fun _ _ _ => trivial

theorem createNamespace_obeys (app : AppId) (past : List PortExchange) :
    (CreateNamespace.execute app).Obeys request.rule past fun _ _ => True := by
  refine Program.Obeys.call_bind trivial (fun _ _ _ => trivial) ?_
  intro answer found went
  cases found with
  | none => exact trivial
  | some contract =>
      rcases question_eq_ok went with rfl
      refine Program.Obeys.call_bind trivial (fun _ _ _ => trivial) ?_
      intro _ _ _
      refine Program.Obeys.call_bind ?_ (fun _ _ _ => trivial) fun _ _ _ => trivial
      exact Or.inr ⟨contract, by simp⟩

theorem issueCapability_obeys (app : AppId) (ns : NamespaceId) (operation : Operation)
    (ttlSecs : UInt64) (past : List PortExchange) :
    (IssueCapability.execute app ns operation ttlSecs).Obeys request.rule past
      fun _ _ => True := by
  refine Program.Obeys.call_bind trivial (fun _ _ _ => trivial) ?_
  intro answer found went
  cases found with
  | none => exact trivial
  | some owned =>
      rcases question_eq_ok went with rfl
      rw [okOr_some, pure_bind]
      split
      · next owns =>
          refine Program.Obeys.call_bind trivial (fun _ _ _ => trivial) ?_
          intro _ _ _
          refine Program.Obeys.call_bind trivial (fun _ _ _ => trivial) ?_
          intro _ _ _
          refine ⟨⟨owned, by simp, ?_⟩, fun _ => trivial⟩
          simpa [Namespace.ownedBy] using owns
      · exact trivial

theorem enroll_obeys (ca : CertAuthority) (body : EnrollRequest) (past : List PortExchange) :
    (Console.enroll ca body).Obeys request.rule past fun _ _ => True := by
  unfold Console.enroll
  cases checked : ErasureParams.new (body.erasureK.getD 4) (body.erasureN.getD 6) with
  | error error => exact trivial
  | ok erasure =>
      rw [fromDomain, Program.done_ok_bind]
      refine (registerApp_obeys (Or.inr (ErasureParams.valid_of_new checked)) past).bind
        (fun _ _ _ => trivial) ?_
      intro _ contract _
      refine (createNamespace_obeys contract.appId _).bind (fun _ _ _ => trivial) ?_
      intro _ ns _
      cases ca.issueClient (Console.effectiveLabel body.label) with
      | error error => exact trivial
      | ok identity => exact trivial

theorem void_obeys {α : Type} {program : UseCase α} {past : List PortExchange}
    (obeys : program.Obeys request.rule past fun _ _ => True) :
    program.void.Obeys request.rule past fun _ _ => True :=
  obeys.bind (fun _ _ _ => trivial) fun _ _ _ => trivial

/-- Whatever it is answered, a request asks only what its rule permits. -/
theorem program_obeys (request : CoordinatorRequest) :
    request.program.Obeys request.rule [] fun _ _ => True := by
  cases request with
  | registerApp body => exact void_obeys (registerApp_obeys (Or.inl ⟨body, rfl, rfl⟩) [])
  | enroll ca body => exact void_obeys (enroll_obeys ca body [])
  | createNamespace body =>
      apply void_obeys
      exact (createNamespace_obeys body.appId []).bind (fun _ _ _ => trivial) fun _ _ _ => trivial
  | issueCapability body => exact void_obeys (issueCapability_obeys _ _ _ _ [])
  | metaCreateNamespace body => exact ⟨Or.inl rfl, fun _ => trivial⟩
  | metaPutManifest body => exact ⟨trivial, fun _ => trivial⟩
  | metaDeleteManifest ns blob => exact ⟨trivial, fun _ => trivial⟩
  | metaSetManifestName ns blob body =>
      refine Program.Obeys.call_bind trivial (fun _ _ _ => trivial) ?_
      intro _ found _
      cases found with
      | none => exact trivial
      | some manifest => exact ⟨trivial, fun _ => trivial⟩
  | _ =>
      apply void_obeys
      exact ⟨trivial, fun _ => trivial⟩

def rules (requests : List CoordinatorRequest) (index : ℕ) (past : List PortExchange)
    (call : PortCall) : Prop :=
  ∃ request, requests[index]? = some request ∧ request.rule past call

theorem obedient_start {σ : Type} (requests : List CoordinatorRequest) (first : σ) :
    System.Obedient (rules requests)
      (System.start first (requests.map program) : System ports Failure σ) := by
  apply System.obedient_start
  intro index program found
  rw [List.getElem?_map] at found
  rcases Option.map_eq_some_iff.mp found with ⟨request, listed, rfl⟩
  exact request.program_obeys.weaken fun past call permitted => ⟨request, listed, permitted⟩

end CoordinatorRequest

end VaultMesh
