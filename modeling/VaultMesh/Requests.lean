import VaultMesh.Interaction.Interleaving
import VaultMesh.Restore

/-!
# Requests to a node

A request is one execution of a use-case with its arguments; `Request.serve` is
the program which serves it. `Request.rule` collects the rules of
`VaultMesh.Writes`, so that a run of many requests needs one step lemma for
each invariant, whatever mix of requests it serves and however they interleave.
-/

namespace VaultMesh

open Interaction Coding

abbrev Trace := List (ℕ × PortExchange)

/-- One execution of a use-case; mesh settings may differ from request to request. -/
inductive Request where
  | put (mesh : Mesh) (ns : NamespaceId) (token : CapabilityToken) (ciphertext : Slice)
  | get (transport : Bool) (ns : NamespaceId) (token : CapabilityToken) (blobId : BlobId)
  | repair (transport : Bool) (ns : NamespaceId) (blobId : BlobId)
  | prune (ns : NamespaceId) (objectId : String)
  | delete (ns : NamespaceId) (token : CapabilityToken) (blobId : BlobId)
  | setName (ns : NamespaceId) (blobId : BlobId) (request : SetNameRequest)

/-- A blob id which a put returned, with what was put. -/
structure Receipt where
  ns : NamespaceId
  blobId : BlobId
  ciphertext : Slice

namespace Request

/-- Serve a request; only a put leaves a receipt. -/
def serve (node : Node) : Request → UseCase (Option Receipt)
  | .put mesh ns token ciphertext => do
      let blobId ← (node.put mesh).execute ns token ciphertext
      pure (some ⟨ns, blobId, ciphertext⟩)
  | .get transport ns token blobId => do
      let _ ← (node.get transport).restore ns token blobId
      pure none
  | .repair transport ns blobId => do
      let _ ← (node.repair transport).execute ns blobId
      pure none
  | .prune ns objectId => do
      let _ ← PruneVersions.execute ns objectId
      pure none
  | .delete ns token blobId => do
      DeleteBackup.execute ns token blobId
      pure none
  | .setName ns blobId request => do
      setManifestName ns blobId request
      pure none

def rule (node : Node) : Request → List PortExchange → PortCall → Prop
  | .put mesh ns token ciphertext => (node.put mesh).rule ns token ciphertext
  | .get _ _ _ _ => fun _ => ReadOnly
  | .repair _ ns blobId => RepairShards.rule ns blobId
  | .prune ns objectId => PruneVersions.rule ns objectId
  | .delete ns _ blobId => DeleteBackup.rule ns blobId
  | .setName ns blobId request => namingRule ns blobId request

theorem not_rule_registerApp {node : Node} {request : Request} {past : List PortExchange}
    {contract : AppContract} : ¬request.rule node past (.registerApp contract) := by
  cases request <;> exact id

theorem not_rule_createNamespace {node : Node} {request : Request} {past : List PortExchange}
    {ns : Namespace} : ¬request.rule node past (.createNamespace ns) := by
  cases request <;> exact id

theorem not_rule_sign {node : Node} {request : Request} {past : List PortExchange}
    {claims : CapabilityClaims} : ¬request.rule node past (.sign claims) := by
  cases request <;> exact id

/-- The receipts for the manifests which a put has written so far. -/
def promises : Request → List PortExchange → List Receipt
  | .put _ _ _ ciphertext, past => past.filterMap fun made =>
      match made.1 with
      | .putManifest manifest => some ⟨manifest.ns, manifest.blobId, ciphertext⟩
      | _ => none
  | _, _ => []

/-- A removal which ended well removed shards and manifests alike. -/
def Completed : Request → List PortExchange → Prop
  | .delete ns _ blobId, past => (⟨.deleteBlob ns blobId, .ok ()⟩ : PortExchange) ∈ past ∧
      (⟨.deleteManifest ns blobId, .ok ()⟩ : PortExchange) ∈ past
  | .prune ns _, past => PruneVersions.Paired ns past
  | _, _ => True

def Returns (request : Request) (past : List PortExchange)
    (result : Except Failure (Option Receipt)) : Prop :=
  ∀ value, result = .ok value →
    (∀ receipt, value = some receipt → receipt ∈ request.promises past) ∧ request.Completed past

/-- Whatever the ports answer, a request follows its rule and returns only what it promised. -/
theorem serve_obeys (node : Node) (request : Request) :
    (request.serve node).Obeys (request.rule node) [] request.Returns := by
  have failed : ∀ past failure, request.Returns past (.error failure) := by
    rintro _ _ _ ⟨⟩
  cases request with
  | put mesh ns token ciphertext =>
      refine ((node.put mesh).execute_obeys ns token ciphertext).bind (fun _ _ _ => failed _ _) ?_
      rintro suffix blobId returns _ ⟨⟩
      refine ⟨?_, trivial⟩
      rintro receipt ⟨⟩
      rcases returns blobId rfl with ⟨manifest, rfl, rfl, written⟩
      simp only [promises, List.mem_filterMap]
      exact ⟨_, written, rfl⟩
  | get transport ns token blobId =>
      refine ((node.get transport).restore_obeys permits_readOnly ns token blobId []).bind
        (fun _ _ _ => failed _ _) ?_
      rintro _ _ _ _ ⟨⟩
      exact ⟨by rintro _ ⟨⟩, trivial⟩
  | repair transport ns blobId =>
      refine ((node.repair transport).execute_obeys ns blobId).bind (fun _ _ _ => failed _ _) ?_
      rintro _ _ _ _ ⟨⟩
      exact ⟨by rintro _ ⟨⟩, trivial⟩
  | prune ns objectId =>
      refine (PruneVersions.execute_obeys ns objectId).bind (fun _ _ _ => failed _ _) ?_
      rintro _ report paired _ ⟨⟩
      exact ⟨by rintro _ ⟨⟩, paired report rfl⟩
  | delete ns token blobId =>
      refine (DeleteBackup.execute_obeys ns token blobId).bind (fun _ _ _ => failed _ _) ?_
      rintro _ _ removes _ ⟨⟩
      exact ⟨by rintro _ ⟨⟩, removes rfl⟩
  | setName ns blobId request =>
      refine (setManifestName_obeys ns blobId request).bind (fun _ _ _ => failed _ _) ?_
      rintro _ _ _ _ ⟨⟩
      exact ⟨by rintro _ ⟨⟩, trivial⟩

def program (node : Node) (request : Request) : UseCase Unit :=
  (request.serve node).void

def rules (node : Node) (requests : List Request) (index : ℕ) (past : List PortExchange)
    (call : PortCall) : Prop :=
  ∃ request, requests[index]? = some request ∧ request.rule node past call

theorem program_obeys (node : Node) (requests : List Request) {index : ℕ} {program : UseCase Unit}
    (found : (requests.map (Request.program node))[index]? = some program) :
    program.Obeys (rules node requests index) [] fun past result => result = .ok () →
      ∃ request, requests[index]? = some request ∧ request.Completed past := by
  rw [List.getElem?_map] at found
  rcases Option.map_eq_some_iff.mp found with ⟨request, listed, rfl⟩
  refine Program.Obeys.bind ((request.serve_obeys node).weaken ?_) (by rintro _ _ _ ⟨⟩) ?_
  · exact fun past call permitted => ⟨request, listed, permitted⟩
  · rintro suffix value returns -
    exact ⟨request, listed, (returns value rfl).2⟩

theorem obedient_start {σ : Type} (node : Node) (requests : List Request) (first : σ) :
    System.Obedient (rules node requests)
      (System.start first (requests.map (program node)) : System ports Failure σ) := by
  apply System.obedient_start
  intro index program found
  exact (program_obeys node requests found).conclude fun _ _ _ => trivial

/-- In every interleaving, a request which has ended well is completed. -/
theorem completed_of_ended {σ : Type} {node : Node} {requests : List Request}
    {handler : Handler ports σ} {first : σ} {schedule : List ℕ} {index : ℕ} {request : Request}
    (listed : requests[index]? = some request)
    (ended : (System.exec handler (System.start first (requests.map (program node)))
      schedule).Ended index (.ok ())) :
    request.Completed (pastOf index (System.exec handler
      (System.start first (requests.map (program node))) schedule).trace) := by
  have follows : System.Follows (rules node requests)
      (fun index past result => result = .ok () →
        ∃ request, requests[index]? = some request ∧ request.Completed past)
      (System.start first (requests.map (program node)) : System ports Failure σ) :=
    fun _ _ found => program_obeys node requests found
  rcases (follows.exec schedule).ended ended rfl with ⟨same, listedToo, completed⟩
  rcases Option.some.inj (listed.symm.trans listedToo) with rfl
  exact completed

/-- No request changes contracts, namespaces or what was signed. -/
theorem serve_frame {A : Type} (node : Node) (env : Environment) (anchors : AnchorModel A)
    (request : Request) (state : World A) :
    ((request.serve node).run (world env anchors) state).2.store.contracts =
        state.store.contracts ∧
      ((request.serve node).run (world env anchors) state).2.store.namespaces =
        state.store.namespaces ∧
      ((request.serve node).run (world env anchors) state).2.signed = state.signed := by
  refine ((request.serve_obeys node).run_invariant
    (fun _ moment => moment.store.contracts = state.store.contracts ∧
      moment.store.namespaces = state.store.namespaces ∧ moment.signed = state.signed)
    (world env anchors) state ⟨rfl, rfl, rfl⟩ ?_).1
  intro past call moment permitted same
  cases call with
  | registerApp contract => exact absurd permitted not_rule_registerApp
  | createNamespace ns => exact absurd permitted not_rule_createNamespace
  | sign claims => exact absurd permitted not_rule_sign
  | _ => exact same

/-- Serve the requests one after another: the receipts, in order, and the last state. -/
def serveAll {σ : Type} (node : Node) (handler : Handler ports σ) :
    List Request → σ → List Receipt × σ
  | [], state => ([], state)
  | request :: requests, state =>
      let (result, state') := (request.serve node).run handler state
      let (receipts, last) := serveAll node handler requests state'
      match result with
      | .ok (some receipt) => (receipt :: receipts, last)
      | _ => (receipts, last)

end Request

def samplePut (byte : UInt8) : Request :=
  .put ⟨false, [], ⟨none, false⟩⟩ ⟨"ns-1"⟩ (sampleToken .put) (oneByte byte)

end VaultMesh
