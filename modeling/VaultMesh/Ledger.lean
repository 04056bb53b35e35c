import VaultMesh.Requests

/-!
# What the trace of an interleaved run tells

Any number of requests share the store. Whatever their order, every manifest
which is stored or was read goes back to one put: it is the manifest which that
put wrote, except perhaps for its name and object id. Ids are fresh, so no two
puts write under the same key, and a manifest's creation time is fixed for good.
Contracts and namespaces do not change at all. `Ledger` states this of the store
and the trace, and every call keeps it.
-/

namespace VaultMesh

open Interaction Coding

/-- The manifests are the same up to name and object id. -/
def Manifest.SameBlob (original manifest : Manifest) : Prop :=
  ∃ nameEnc objectId, manifest = { original with nameEnc := nameEnc, objectId := objectId }

theorem Manifest.SameBlob.refl (manifest : Manifest) : manifest.SameBlob manifest :=
  ⟨manifest.nameEnc, manifest.objectId, rfl⟩

theorem Manifest.SameBlob.named {original manifest : Manifest} (same : original.SameBlob manifest)
    (request : SetNameRequest) : original.SameBlob (manifest.named request) := by
  rcases same with ⟨nameEnc, objectId, rfl⟩
  exact ⟨_, _, rfl⟩

theorem Manifest.SameBlob.createdAt_eq {original manifest : Manifest}
    (same : original.SameBlob manifest) : manifest.createdAt = original.createdAt := by
  rcases same with ⟨nameEnc, objectId, rfl⟩
  rfl

def IsPut (requests : List Request) (index : ℕ) : Prop :=
  ∃ mesh ns token ciphertext, requests[index]? = some (.put mesh ns token ciphertext)

/-- A put drew the id of this manifest and wrote it, up to name and object id. -/
def Origin (requests : List Request) (trace : Trace) (manifest : Manifest) : Prop :=
  ∃ index original answer, IsPut requests index ∧
    (index, ⟨.newId "blob", manifest.blobId.value⟩) ∈ trace ∧
    (index, ⟨.putManifest original, answer⟩) ∈ trace ∧ original.SameBlob manifest

theorem Origin.mono {requests : List Request} {trace trace' : Trace} {manifest : Manifest}
    (origin : Origin requests trace manifest) (subset : trace ⊆ trace') :
    Origin requests trace' manifest := by
  rcases origin with ⟨index, original, answer, isPut, drawn, written, same⟩
  exact ⟨index, original, answer, isPut, subset drawn, subset written, same⟩

def Written (trace : Trace) (manifest : Manifest) : Prop :=
  ∃ writer answer, (writer, ⟨.putManifest manifest, answer⟩) ∈ trace

theorem Written.mono {trace trace' : Trace} {manifest : Manifest} (written : Written trace manifest)
    (subset : trace ⊆ trace') : Written trace' manifest := by
  rcases written with ⟨writer, answer, made⟩
  exact ⟨writer, answer, subset made⟩

/-- Contracts and namespaces are those of the start, and so are all answers about them. -/
structure Standing {A : Type} (first state : World A) (trace : Trace) : Prop where
  contracts : state.store.contracts = first.store.contracts
  namespaces : state.store.namespaces = first.store.namespaces
  owners : ∀ index ns owned, (index, ⟨.getNamespace ns, .ok (some owned)⟩) ∈ trace →
    first.store.getNamespace ns = some owned
  terms : ∀ index app contract, (index, ⟨.getContract app, .ok (some contract)⟩) ∈ trace →
    first.store.getContract app = some contract

/-- What is known of the store and the trace at any moment of a run from `first`. -/
structure Ledger {A : Type} (env : Environment) (requests : List Request) (first : World A)
    (state : World A) (trace : Trace) : Prop extends Standing first state trace where
  drawn : ∀ index kind id, (index, ⟨.newId kind, id⟩) ∈ trace →
    ∃ tick < state.tick, id = env.freshId tick kind
  unique : ∀ index other id, (index, ⟨.newId "blob", id⟩) ∈ trace →
    (other, ⟨.newId "blob", id⟩) ∈ trace → index = other
  origins : ∀ manifest, Written trace manifest → Origin requests trace manifest
  stored : ∀ ns blobId manifest, state.store.getManifest ns blobId = some manifest →
    (manifest.ns = ns ∧ manifest.blobId = blobId) ∧ Written trace manifest
  read : ∀ index ns blobId manifest,
    (index, ⟨.getManifest ns blobId, .ok (some manifest)⟩) ∈ trace →
    (manifest.ns = ns ∧ manifest.blobId = blobId) ∧ Written trace manifest

section Steps

variable {A : Type} {node : Node} {env : Environment} {anchors : AnchorModel A}
  {requests : List Request} {first state : World A} {trace : Trace} {index : ℕ} {call : PortCall}

theorem Ledger.origin_of_rule (ledger : Ledger env requests first state trace)
    {manifest : Manifest} (answer : PortResult Unit)
    (permitted : Request.rules node requests index (pastOf index trace) (.putManifest manifest)) :
    Origin requests (trace ++ [(index, ⟨.putManifest manifest, answer⟩)]) manifest := by
  rcases permitted with ⟨request, listed, rule⟩
  cases request with
  | put mesh ns token ciphertext =>
      refine ⟨index, manifest, answer, ⟨mesh, ns, token, ciphertext, listed⟩, ?_, by simp,
        .refl manifest⟩
      exact List.mem_append_left _ (mem_pastOf.mp rule.1.fresh)
  | setName ns blobId naming =>
      rcases rule with ⟨read, answered, rfl⟩
      rcases ledger.read index ns blobId read (mem_pastOf.mp answered) with ⟨-, known⟩
      rcases ledger.origins read known with ⟨putter, original, put, isPut, drawn, written, same⟩
      exact ⟨putter, original, put, isPut, List.mem_append_left _ drawn,
        List.mem_append_left _ written, same.named naming⟩
  | _ => exact rule.elim

theorem Request.rules_keep
    (permitted : Request.rules node requests index (pastOf index trace) call)
    (store : MemoryMetadataStore) :
    (store.after call).contracts = store.contracts ∧
      (store.after call).namespaces = store.namespaces := by
  rcases permitted with ⟨request, -, rule⟩
  cases call with
  | registerApp contract => exact absurd rule Request.not_rule_registerApp
  | createNamespace ns => exact absurd rule Request.not_rule_createNamespace
  | _ => exact ⟨rfl, rfl⟩

theorem standing_start (first : World A) : Standing first first [] :=
  ⟨rfl, rfl, by simp, by simp⟩

theorem Standing.step (standing : Standing first state trace)
    (permitted : Request.rules node requests index (pastOf index trace) call) :
    Standing first (state.after anchors call)
      (trace ++ [(index, ⟨call, state.reply env anchors call⟩)]) := by
  rcases Request.rules_keep permitted state.store with ⟨sameContracts, sameNamespaces⟩
  constructor
  · exact sameContracts.trans standing.contracts
  · exact sameNamespaces.trans standing.namespaces
  · intro other ns owned answered
    rcases mem_trace_append answered with before | ⟨-, rfl, now⟩
    · exact standing.owners other ns owned before
    · simp only [MemoryMetadataStore.getNamespace, ← standing.namespaces]
      exact (Except.ok.inj now).symm
  · intro other app contract answered
    rcases mem_trace_append answered with before | ⟨-, rfl, now⟩
    · exact standing.terms other app contract before
    · simp only [MemoryMetadataStore.getContract, ← standing.contracts]
      exact (Except.ok.inj now).symm

theorem Ledger.step (fresh : Function.Injective env.uuid)
    (ledger : Ledger env requests first state trace)
    (permitted : Request.rules node requests index (pastOf index trace) call) :
    Ledger env requests first (state.after anchors call)
      (trace ++ [(index, ⟨call, state.reply env anchors call⟩)]) := by
  have grows : trace ⊆ trace ++ [(index, ⟨call, state.reply env anchors call⟩)] :=
    List.subset_append_left _ _
  constructor
  · exact ledger.toStanding.step permitted
  · intro other kind id drawn
    rcases mem_trace_append drawn with before | ⟨-, rfl, rfl⟩
    · rcases ledger.drawn other kind id before with ⟨tick, earlier, same⟩
      exact ⟨tick, Nat.lt_succ_of_lt earlier, same⟩
    · exact ⟨state.tick, Nat.lt_succ_self _, rfl⟩
  · -- A fresh id differs from all ids drawn before.
    have new : ∀ other, (other, ⟨.newId "blob", env.freshId state.tick "blob"⟩) ∉ trace := by
      intro other drawn
      rcases ledger.drawn other _ _ drawn with ⟨tick, earlier, same⟩
      have sameTick := Environment.freshId_injective fresh "blob" same
      omega
    intro one other id drawn drawnToo
    rcases mem_trace_append drawn with before | ⟨rfl, rfl, rfl⟩
    · rcases mem_trace_append drawnToo with beforeToo | ⟨rfl, rfl, rfl⟩
      · exact ledger.unique one other id before beforeToo
      · exact absurd before (new one)
    · rcases mem_trace_append drawnToo with beforeToo | ⟨rfl, -, -⟩
      · exact absurd beforeToo (new other)
      · rfl
  · rintro manifest ⟨writer, answer, put⟩
    rcases mem_trace_append put with before | ⟨rfl, rfl, rfl⟩
    · exact (ledger.origins manifest ⟨writer, answer, before⟩).mono grows
    · exact ledger.origin_of_rule _ permitted
  · intro ns blobId manifest found
    rcases MemoryMetadataStore.getManifest_after found with before | ⟨rfl, sameNs, sameBlob⟩
    · rcases ledger.stored ns blobId manifest before with ⟨key, written⟩
      exact ⟨key, written.mono grows⟩
    · exact ⟨⟨sameNs, sameBlob⟩, index, _, List.mem_append_right _ List.mem_cons_self⟩
  · intro other ns blobId manifest answered
    rcases mem_trace_append answered with before | ⟨-, rfl, now⟩
    · rcases ledger.read other ns blobId manifest before with ⟨key, written⟩
      exact ⟨key, written.mono grows⟩
    · rcases ledger.stored ns blobId manifest (Except.ok.inj now).symm with ⟨key, written⟩
      exact ⟨key, written.mono grows⟩

theorem ledger_start (none : ∀ ns blobId, first.store.getManifest ns blobId = none) :
    Ledger env requests first first [] := by
  refine ⟨standing_start first, by simp, by simp, by simp [Written], ?_, by simp⟩
  intro ns blobId manifest found
  rw [none] at found
  cases found

/-- The ledger is kept in every interleaving. -/
theorem ledger_exec (fresh : Function.Injective env.uuid)
    (none : ∀ ns blobId, first.store.getManifest ns blobId = none) (anchors : AnchorModel A)
    (node : Node) (requests : List Request) (schedule : List ℕ) :
    System.Obedient (Request.rules node requests)
        (System.exec (world env anchors)
          (System.start first (requests.map (Request.program node))) schedule) ∧
      Ledger env requests first
        (System.exec (world env anchors)
          (System.start first (requests.map (Request.program node))) schedule).state
        (System.exec (world env anchors)
          (System.start first (requests.map (Request.program node))) schedule).trace := by
  apply (Request.obedient_start node requests first).exec (ledger_start none)
  intro state trace index call _ ledger permitted
  exact ledger.step fresh permitted

theorem put_writes_once {mesh : Mesh} {ns : NamespaceId} {token : CapabilityToken}
    {ciphertext : Slice} (lawful : System.Lawful (Request.rules node requests) trace)
    (isPut : requests[index]? = some (.put mesh ns token ciphertext)) {manifest other : Manifest}
    {answer answer' : PortResult Unit}
    (written : (index, ⟨.putManifest manifest, answer⟩) ∈ trace)
    (writtenToo : (index, ⟨.putManifest other, answer'⟩) ∈ trace) : manifest = other := by
  have same := lawful.eq_of_once (fun call => ∃ manifest, call = .putManifest manifest)
    (by
      rintro past call ⟨request, listed, rule⟩ ⟨manifest, rfl⟩ made present ⟨earlier, isEarlier⟩
      rcases Option.some.inj (isPut.symm.trans listed) with rfl
      exact rule.2 made present earlier isEarlier)
    ⟨manifest, rfl⟩ ⟨other, rfl⟩ written writtenToo
  cases same
  rfl

/-- All manifests of one key are the same up to name and object id. -/
theorem Ledger.origin_unique (ledger : Ledger env requests first state trace)
    (lawful : System.Lawful (Request.rules node requests) trace) {manifest other : Manifest}
    (written : Written trace manifest) (writtenToo : Written trace other)
    (sameBlob : manifest.blobId = other.blobId) :
    ∃ original : Manifest, original.SameBlob manifest ∧ original.SameBlob other := by
  rcases ledger.origins manifest written with
    ⟨index, original, answer, ⟨mesh, ns, token, ciphertext, isPut⟩, drawn, put, same⟩
  rcases ledger.origins other writtenToo with
    ⟨index', original', answer', -, drawn', put', same'⟩
  rw [sameBlob] at drawn
  rcases ledger.unique _ _ _ drawn drawn' with rfl
  rcases put_writes_once lawful isPut put put' with rfl
  exact ⟨original, same, same'⟩

/-- A put of this ciphertext wrote the manifest, up to name and object id. -/
def PutBy (requests : List Request) (trace : Trace) (manifest : Manifest) (ciphertext : Slice) :
    Prop :=
  ∃ index mesh token original answer,
    requests[index]? = some (.put mesh manifest.ns token ciphertext) ∧
    (index, ⟨.putManifest original, answer⟩) ∈ trace ∧ original.SameBlob manifest

/-- What the put of a written manifest had been told when it wrote it. -/
theorem Ledger.admitted_of_written (ledger : Ledger env requests first state trace)
    (lawful : System.Lawful (Request.rules node requests) trace) {manifest : Manifest}
    (written : Written trace manifest) :
    ∃ index mesh token ciphertext original answer past,
      requests[index]? = some (.put mesh manifest.ns token ciphertext) ∧
      (index, ⟨.putManifest original, answer⟩) ∈ trace ∧ original.SameBlob manifest ∧
      (node.put mesh).Admitted manifest.ns token ciphertext past original ∧
      ∀ made ∈ past, (index, made) ∈ trace := by
  rcases ledger.origins manifest written with
    ⟨index, original, answer, ⟨mesh, putNs, token, ciphertext, listed⟩, -, put, same⟩
  rcases List.append_of_mem put with ⟨before, after, split⟩
  rcases lawful _ _ _ _ split with ⟨request, listedToo, rule⟩
  rcases Option.some.inj (listed.symm.trans listedToo) with rfl
  have inside : manifest.ns = putNs := by
    rcases same with ⟨nameEnc, objectId, rfl⟩
    exact rule.1.inside
  subst inside
  refine ⟨index, mesh, token, ciphertext, original, answer, _, listed, put, same, rule.1, ?_⟩
  intro made present
  rw [split]
  exact List.mem_append_left _ (mem_pastOf.mp present)

theorem Ledger.admitted_of_stored (ledger : Ledger env requests first state trace)
    (lawful : System.Lawful (Request.rules node requests) trace) {ns : NamespaceId}
    {blobId : BlobId} {manifest : Manifest}
    (found : state.store.getManifest ns blobId = some manifest) :
    ∃ index mesh token ciphertext original answer past,
      requests[index]? = some (.put mesh ns token ciphertext) ∧
      (index, ⟨.putManifest original, answer⟩) ∈ trace ∧ original.SameBlob manifest ∧
      (node.put mesh).Admitted ns token ciphertext past original ∧
      ∀ made ∈ past, (index, made) ∈ trace := by
  rcases ledger.stored ns blobId manifest found with ⟨⟨rfl, rfl⟩, written⟩
  exact ledger.admitted_of_written lawful written

/-- Every stored manifest was made for the ciphertext of a put. -/
theorem Ledger.holds_of_stored (ledger : Ledger env requests first state trace)
    (lawful : System.Lawful (Request.rules node requests) trace)
    (supported : ∀ app contract, first.store.getContract app = some contract →
      node.Supports contract) {ns : NamespaceId} {blobId : BlobId} {manifest : Manifest}
    (found : state.store.getManifest ns blobId = some manifest) :
    ∃ ciphertext word, PutBy requests trace manifest ciphertext ∧
      node.Holds manifest ciphertext.bytes word := by
  rcases ledger.admitted_of_stored lawful found with
    ⟨index, mesh, token, ciphertext, original, answer, past, listed, put, same, admitted, told⟩
  rcases ledger.stored ns blobId manifest found with ⟨⟨rfl, rfl⟩, -⟩
  rcases admitted.checked with ⟨contract, usage, terms, -, -, erasure⟩
  rcases supported _ contract (ledger.terms index _ contract (told _ terms)) with ⟨valid, fit⟩
  rw [erasure] at valid fit
  rcases admitted.encodes with ⟨word, encodes⟩
  refine ⟨ciphertext, word, ⟨index, mesh, token, original, answer, listed, put, same⟩, ?_⟩
  rcases same with ⟨nameEnc, objectId, rfl⟩
  exact ⟨valid, fit, encodes.encoded, encodes.records, encodes.length⟩

end Steps

end VaultMesh
